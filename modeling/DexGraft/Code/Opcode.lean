import DexGraft.Code.Reference

/-!
# Opcodes

The instruction set of dex files up to version 039. An opcode fixes the operands that follow it in
assembly text: first registers, then at most one operand of another sort.
-/

namespace DexGraft

/-- The registers of an instruction. -/
inductive RegisterForm where
  /-- Exactly so many registers, each an operand of its own. -/
  | fixed (count : Nat)
  /-- A list of registers between braces. -/
  | list
  /-- The first and the last register of a run, between braces. -/
  | range
deriving DecidableEq, Repr

/-- What follows the registers of an instruction. -/
inductive Trailing where
  | nothing
  | literal
  | reference (kind : ReferenceKind)
  /-- A reference to a method and the prototype that it is called with. -/
  | prototyped
  /-- The label of an instruction that control may continue at. -/
  | branch
  /-- The label of a block of data. -/
  | payload
deriving DecidableEq, Repr

/-- The operands of an instruction. -/
structure Format where
  registers : RegisterForm
  trailing : Trailing
deriving DecidableEq, Repr

inductive Opcode where
  | nop | move | moveFrom16 | move16 | moveWide | moveWideFrom16 | moveWide16 | moveObject
  | moveObjectFrom16 | moveObject16 | moveResult | moveResultWide | moveResultObject
  | moveException | returnVoid | returnValue | returnWide | returnObject | const4 | const16
  | const | constHigh16 | constWide16 | constWide32 | constWide | constWideHigh16 | constString
  | constStringJumbo | constClass | monitorEnter | monitorExit | checkCast | instanceOf
  | arrayLength | newInstance | newArray | filledNewArray | filledNewArrayRange | fillArrayData
  | throw | goto | goto16 | goto32 | packedSwitch | sparseSwitch | cmplFloat | cmpgFloat
  | cmplDouble | cmpgDouble | cmpLong | ifEq | ifNe | ifLt | ifGe | ifGt | ifLe | ifEqz | ifNez
  | ifLtz | ifGez | ifGtz | ifLez | aget | agetWide | agetObject | agetBoolean | agetByte
  | agetChar | agetShort | aput | aputWide | aputObject | aputBoolean | aputByte | aputChar
  | aputShort | iget | igetWide | igetObject | igetBoolean | igetByte | igetChar | igetShort
  | iput | iputWide | iputObject | iputBoolean | iputByte | iputChar | iputShort | sget
  | sgetWide | sgetObject | sgetBoolean | sgetByte | sgetChar | sgetShort | sput | sputWide
  | sputObject | sputBoolean | sputByte | sputChar | sputShort | invokeVirtual | invokeSuper
  | invokeDirect | invokeStatic | invokeInterface | invokeVirtualRange | invokeSuperRange
  | invokeDirectRange | invokeStaticRange | invokeInterfaceRange | negInt | notInt | negLong
  | notLong | negFloat | negDouble | intToLong | intToFloat | intToDouble | longToInt
  | longToFloat | longToDouble | floatToInt | floatToLong | floatToDouble | doubleToInt
  | doubleToLong | doubleToFloat | intToByte | intToChar | intToShort | addInt | subInt | mulInt
  | divInt | remInt | andInt | orInt | xorInt | shlInt | shrInt | ushrInt | addLong | subLong
  | mulLong | divLong | remLong | andLong | orLong | xorLong | shlLong | shrLong | ushrLong
  | addFloat | subFloat | mulFloat | divFloat | remFloat | addDouble | subDouble | mulDouble
  | divDouble | remDouble | addInt2Addr | subInt2Addr | mulInt2Addr | divInt2Addr | remInt2Addr
  | andInt2Addr | orInt2Addr | xorInt2Addr | shlInt2Addr | shrInt2Addr | ushrInt2Addr
  | addLong2Addr | subLong2Addr | mulLong2Addr | divLong2Addr | remLong2Addr | andLong2Addr
  | orLong2Addr | xorLong2Addr | shlLong2Addr | shrLong2Addr | ushrLong2Addr | addFloat2Addr
  | subFloat2Addr | mulFloat2Addr | divFloat2Addr | remFloat2Addr | addDouble2Addr
  | subDouble2Addr | mulDouble2Addr | divDouble2Addr | remDouble2Addr | addIntLit16 | rsubInt
  | mulIntLit16 | divIntLit16 | remIntLit16 | andIntLit16 | orIntLit16 | xorIntLit16 | addIntLit8
  | rsubIntLit8 | mulIntLit8 | divIntLit8 | remIntLit8 | andIntLit8 | orIntLit8 | xorIntLit8
  | shlIntLit8 | shrIntLit8 | ushrIntLit8 | invokePolymorphic | invokePolymorphicRange
  | invokeCustom | invokeCustomRange | constMethodHandle | constMethodType
deriving DecidableEq, Repr

namespace Opcode

/-- What is fixed about an opcode. -/
structure Entry where
  byte : Nat
  mnemonic : String
  registers : RegisterForm
  trailing : Trailing

def entry : Opcode → Entry
  | .nop => ⟨0x00, "nop", .fixed 0, .nothing⟩
  | .move => ⟨0x01, "move", .fixed 2, .nothing⟩
  | .moveFrom16 => ⟨0x02, "move/from16", .fixed 2, .nothing⟩
  | .move16 => ⟨0x03, "move/16", .fixed 2, .nothing⟩
  | .moveWide => ⟨0x04, "move-wide", .fixed 2, .nothing⟩
  | .moveWideFrom16 => ⟨0x05, "move-wide/from16", .fixed 2, .nothing⟩
  | .moveWide16 => ⟨0x06, "move-wide/16", .fixed 2, .nothing⟩
  | .moveObject => ⟨0x07, "move-object", .fixed 2, .nothing⟩
  | .moveObjectFrom16 => ⟨0x08, "move-object/from16", .fixed 2, .nothing⟩
  | .moveObject16 => ⟨0x09, "move-object/16", .fixed 2, .nothing⟩
  | .moveResult => ⟨0x0a, "move-result", .fixed 1, .nothing⟩
  | .moveResultWide => ⟨0x0b, "move-result-wide", .fixed 1, .nothing⟩
  | .moveResultObject => ⟨0x0c, "move-result-object", .fixed 1, .nothing⟩
  | .moveException => ⟨0x0d, "move-exception", .fixed 1, .nothing⟩
  | .returnVoid => ⟨0x0e, "return-void", .fixed 0, .nothing⟩
  | .returnValue => ⟨0x0f, "return", .fixed 1, .nothing⟩
  | .returnWide => ⟨0x10, "return-wide", .fixed 1, .nothing⟩
  | .returnObject => ⟨0x11, "return-object", .fixed 1, .nothing⟩
  | .const4 => ⟨0x12, "const/4", .fixed 1, .literal⟩
  | .const16 => ⟨0x13, "const/16", .fixed 1, .literal⟩
  | .const => ⟨0x14, "const", .fixed 1, .literal⟩
  | .constHigh16 => ⟨0x15, "const/high16", .fixed 1, .literal⟩
  | .constWide16 => ⟨0x16, "const-wide/16", .fixed 1, .literal⟩
  | .constWide32 => ⟨0x17, "const-wide/32", .fixed 1, .literal⟩
  | .constWide => ⟨0x18, "const-wide", .fixed 1, .literal⟩
  | .constWideHigh16 => ⟨0x19, "const-wide/high16", .fixed 1, .literal⟩
  | .constString => ⟨0x1a, "const-string", .fixed 1, .reference .string⟩
  | .constStringJumbo => ⟨0x1b, "const-string/jumbo", .fixed 1, .reference .string⟩
  | .constClass => ⟨0x1c, "const-class", .fixed 1, .reference .type⟩
  | .monitorEnter => ⟨0x1d, "monitor-enter", .fixed 1, .nothing⟩
  | .monitorExit => ⟨0x1e, "monitor-exit", .fixed 1, .nothing⟩
  | .checkCast => ⟨0x1f, "check-cast", .fixed 1, .reference .type⟩
  | .instanceOf => ⟨0x20, "instance-of", .fixed 2, .reference .type⟩
  | .arrayLength => ⟨0x21, "array-length", .fixed 2, .nothing⟩
  | .newInstance => ⟨0x22, "new-instance", .fixed 1, .reference .type⟩
  | .newArray => ⟨0x23, "new-array", .fixed 2, .reference .type⟩
  | .filledNewArray => ⟨0x24, "filled-new-array", .list, .reference .type⟩
  | .filledNewArrayRange => ⟨0x25, "filled-new-array/range", .range, .reference .type⟩
  | .fillArrayData => ⟨0x26, "fill-array-data", .fixed 1, .payload⟩
  | .throw => ⟨0x27, "throw", .fixed 1, .nothing⟩
  | .goto => ⟨0x28, "goto", .fixed 0, .branch⟩
  | .goto16 => ⟨0x29, "goto/16", .fixed 0, .branch⟩
  | .goto32 => ⟨0x2a, "goto/32", .fixed 0, .branch⟩
  | .packedSwitch => ⟨0x2b, "packed-switch", .fixed 1, .branch⟩
  | .sparseSwitch => ⟨0x2c, "sparse-switch", .fixed 1, .branch⟩
  | .cmplFloat => ⟨0x2d, "cmpl-float", .fixed 3, .nothing⟩
  | .cmpgFloat => ⟨0x2e, "cmpg-float", .fixed 3, .nothing⟩
  | .cmplDouble => ⟨0x2f, "cmpl-double", .fixed 3, .nothing⟩
  | .cmpgDouble => ⟨0x30, "cmpg-double", .fixed 3, .nothing⟩
  | .cmpLong => ⟨0x31, "cmp-long", .fixed 3, .nothing⟩
  | .ifEq => ⟨0x32, "if-eq", .fixed 2, .branch⟩
  | .ifNe => ⟨0x33, "if-ne", .fixed 2, .branch⟩
  | .ifLt => ⟨0x34, "if-lt", .fixed 2, .branch⟩
  | .ifGe => ⟨0x35, "if-ge", .fixed 2, .branch⟩
  | .ifGt => ⟨0x36, "if-gt", .fixed 2, .branch⟩
  | .ifLe => ⟨0x37, "if-le", .fixed 2, .branch⟩
  | .ifEqz => ⟨0x38, "if-eqz", .fixed 1, .branch⟩
  | .ifNez => ⟨0x39, "if-nez", .fixed 1, .branch⟩
  | .ifLtz => ⟨0x3a, "if-ltz", .fixed 1, .branch⟩
  | .ifGez => ⟨0x3b, "if-gez", .fixed 1, .branch⟩
  | .ifGtz => ⟨0x3c, "if-gtz", .fixed 1, .branch⟩
  | .ifLez => ⟨0x3d, "if-lez", .fixed 1, .branch⟩
  | .aget => ⟨0x44, "aget", .fixed 3, .nothing⟩
  | .agetWide => ⟨0x45, "aget-wide", .fixed 3, .nothing⟩
  | .agetObject => ⟨0x46, "aget-object", .fixed 3, .nothing⟩
  | .agetBoolean => ⟨0x47, "aget-boolean", .fixed 3, .nothing⟩
  | .agetByte => ⟨0x48, "aget-byte", .fixed 3, .nothing⟩
  | .agetChar => ⟨0x49, "aget-char", .fixed 3, .nothing⟩
  | .agetShort => ⟨0x4a, "aget-short", .fixed 3, .nothing⟩
  | .aput => ⟨0x4b, "aput", .fixed 3, .nothing⟩
  | .aputWide => ⟨0x4c, "aput-wide", .fixed 3, .nothing⟩
  | .aputObject => ⟨0x4d, "aput-object", .fixed 3, .nothing⟩
  | .aputBoolean => ⟨0x4e, "aput-boolean", .fixed 3, .nothing⟩
  | .aputByte => ⟨0x4f, "aput-byte", .fixed 3, .nothing⟩
  | .aputChar => ⟨0x50, "aput-char", .fixed 3, .nothing⟩
  | .aputShort => ⟨0x51, "aput-short", .fixed 3, .nothing⟩
  | .iget => ⟨0x52, "iget", .fixed 2, .reference .field⟩
  | .igetWide => ⟨0x53, "iget-wide", .fixed 2, .reference .field⟩
  | .igetObject => ⟨0x54, "iget-object", .fixed 2, .reference .field⟩
  | .igetBoolean => ⟨0x55, "iget-boolean", .fixed 2, .reference .field⟩
  | .igetByte => ⟨0x56, "iget-byte", .fixed 2, .reference .field⟩
  | .igetChar => ⟨0x57, "iget-char", .fixed 2, .reference .field⟩
  | .igetShort => ⟨0x58, "iget-short", .fixed 2, .reference .field⟩
  | .iput => ⟨0x59, "iput", .fixed 2, .reference .field⟩
  | .iputWide => ⟨0x5a, "iput-wide", .fixed 2, .reference .field⟩
  | .iputObject => ⟨0x5b, "iput-object", .fixed 2, .reference .field⟩
  | .iputBoolean => ⟨0x5c, "iput-boolean", .fixed 2, .reference .field⟩
  | .iputByte => ⟨0x5d, "iput-byte", .fixed 2, .reference .field⟩
  | .iputChar => ⟨0x5e, "iput-char", .fixed 2, .reference .field⟩
  | .iputShort => ⟨0x5f, "iput-short", .fixed 2, .reference .field⟩
  | .sget => ⟨0x60, "sget", .fixed 1, .reference .field⟩
  | .sgetWide => ⟨0x61, "sget-wide", .fixed 1, .reference .field⟩
  | .sgetObject => ⟨0x62, "sget-object", .fixed 1, .reference .field⟩
  | .sgetBoolean => ⟨0x63, "sget-boolean", .fixed 1, .reference .field⟩
  | .sgetByte => ⟨0x64, "sget-byte", .fixed 1, .reference .field⟩
  | .sgetChar => ⟨0x65, "sget-char", .fixed 1, .reference .field⟩
  | .sgetShort => ⟨0x66, "sget-short", .fixed 1, .reference .field⟩
  | .sput => ⟨0x67, "sput", .fixed 1, .reference .field⟩
  | .sputWide => ⟨0x68, "sput-wide", .fixed 1, .reference .field⟩
  | .sputObject => ⟨0x69, "sput-object", .fixed 1, .reference .field⟩
  | .sputBoolean => ⟨0x6a, "sput-boolean", .fixed 1, .reference .field⟩
  | .sputByte => ⟨0x6b, "sput-byte", .fixed 1, .reference .field⟩
  | .sputChar => ⟨0x6c, "sput-char", .fixed 1, .reference .field⟩
  | .sputShort => ⟨0x6d, "sput-short", .fixed 1, .reference .field⟩
  | .invokeVirtual => ⟨0x6e, "invoke-virtual", .list, .reference .method⟩
  | .invokeSuper => ⟨0x6f, "invoke-super", .list, .reference .method⟩
  | .invokeDirect => ⟨0x70, "invoke-direct", .list, .reference .method⟩
  | .invokeStatic => ⟨0x71, "invoke-static", .list, .reference .method⟩
  | .invokeInterface => ⟨0x72, "invoke-interface", .list, .reference .method⟩
  | .invokeVirtualRange => ⟨0x74, "invoke-virtual/range", .range, .reference .method⟩
  | .invokeSuperRange => ⟨0x75, "invoke-super/range", .range, .reference .method⟩
  | .invokeDirectRange => ⟨0x76, "invoke-direct/range", .range, .reference .method⟩
  | .invokeStaticRange => ⟨0x77, "invoke-static/range", .range, .reference .method⟩
  | .invokeInterfaceRange => ⟨0x78, "invoke-interface/range", .range, .reference .method⟩
  | .negInt => ⟨0x7b, "neg-int", .fixed 2, .nothing⟩
  | .notInt => ⟨0x7c, "not-int", .fixed 2, .nothing⟩
  | .negLong => ⟨0x7d, "neg-long", .fixed 2, .nothing⟩
  | .notLong => ⟨0x7e, "not-long", .fixed 2, .nothing⟩
  | .negFloat => ⟨0x7f, "neg-float", .fixed 2, .nothing⟩
  | .negDouble => ⟨0x80, "neg-double", .fixed 2, .nothing⟩
  | .intToLong => ⟨0x81, "int-to-long", .fixed 2, .nothing⟩
  | .intToFloat => ⟨0x82, "int-to-float", .fixed 2, .nothing⟩
  | .intToDouble => ⟨0x83, "int-to-double", .fixed 2, .nothing⟩
  | .longToInt => ⟨0x84, "long-to-int", .fixed 2, .nothing⟩
  | .longToFloat => ⟨0x85, "long-to-float", .fixed 2, .nothing⟩
  | .longToDouble => ⟨0x86, "long-to-double", .fixed 2, .nothing⟩
  | .floatToInt => ⟨0x87, "float-to-int", .fixed 2, .nothing⟩
  | .floatToLong => ⟨0x88, "float-to-long", .fixed 2, .nothing⟩
  | .floatToDouble => ⟨0x89, "float-to-double", .fixed 2, .nothing⟩
  | .doubleToInt => ⟨0x8a, "double-to-int", .fixed 2, .nothing⟩
  | .doubleToLong => ⟨0x8b, "double-to-long", .fixed 2, .nothing⟩
  | .doubleToFloat => ⟨0x8c, "double-to-float", .fixed 2, .nothing⟩
  | .intToByte => ⟨0x8d, "int-to-byte", .fixed 2, .nothing⟩
  | .intToChar => ⟨0x8e, "int-to-char", .fixed 2, .nothing⟩
  | .intToShort => ⟨0x8f, "int-to-short", .fixed 2, .nothing⟩
  | .addInt => ⟨0x90, "add-int", .fixed 3, .nothing⟩
  | .subInt => ⟨0x91, "sub-int", .fixed 3, .nothing⟩
  | .mulInt => ⟨0x92, "mul-int", .fixed 3, .nothing⟩
  | .divInt => ⟨0x93, "div-int", .fixed 3, .nothing⟩
  | .remInt => ⟨0x94, "rem-int", .fixed 3, .nothing⟩
  | .andInt => ⟨0x95, "and-int", .fixed 3, .nothing⟩
  | .orInt => ⟨0x96, "or-int", .fixed 3, .nothing⟩
  | .xorInt => ⟨0x97, "xor-int", .fixed 3, .nothing⟩
  | .shlInt => ⟨0x98, "shl-int", .fixed 3, .nothing⟩
  | .shrInt => ⟨0x99, "shr-int", .fixed 3, .nothing⟩
  | .ushrInt => ⟨0x9a, "ushr-int", .fixed 3, .nothing⟩
  | .addLong => ⟨0x9b, "add-long", .fixed 3, .nothing⟩
  | .subLong => ⟨0x9c, "sub-long", .fixed 3, .nothing⟩
  | .mulLong => ⟨0x9d, "mul-long", .fixed 3, .nothing⟩
  | .divLong => ⟨0x9e, "div-long", .fixed 3, .nothing⟩
  | .remLong => ⟨0x9f, "rem-long", .fixed 3, .nothing⟩
  | .andLong => ⟨0xa0, "and-long", .fixed 3, .nothing⟩
  | .orLong => ⟨0xa1, "or-long", .fixed 3, .nothing⟩
  | .xorLong => ⟨0xa2, "xor-long", .fixed 3, .nothing⟩
  | .shlLong => ⟨0xa3, "shl-long", .fixed 3, .nothing⟩
  | .shrLong => ⟨0xa4, "shr-long", .fixed 3, .nothing⟩
  | .ushrLong => ⟨0xa5, "ushr-long", .fixed 3, .nothing⟩
  | .addFloat => ⟨0xa6, "add-float", .fixed 3, .nothing⟩
  | .subFloat => ⟨0xa7, "sub-float", .fixed 3, .nothing⟩
  | .mulFloat => ⟨0xa8, "mul-float", .fixed 3, .nothing⟩
  | .divFloat => ⟨0xa9, "div-float", .fixed 3, .nothing⟩
  | .remFloat => ⟨0xaa, "rem-float", .fixed 3, .nothing⟩
  | .addDouble => ⟨0xab, "add-double", .fixed 3, .nothing⟩
  | .subDouble => ⟨0xac, "sub-double", .fixed 3, .nothing⟩
  | .mulDouble => ⟨0xad, "mul-double", .fixed 3, .nothing⟩
  | .divDouble => ⟨0xae, "div-double", .fixed 3, .nothing⟩
  | .remDouble => ⟨0xaf, "rem-double", .fixed 3, .nothing⟩
  | .addInt2Addr => ⟨0xb0, "add-int/2addr", .fixed 2, .nothing⟩
  | .subInt2Addr => ⟨0xb1, "sub-int/2addr", .fixed 2, .nothing⟩
  | .mulInt2Addr => ⟨0xb2, "mul-int/2addr", .fixed 2, .nothing⟩
  | .divInt2Addr => ⟨0xb3, "div-int/2addr", .fixed 2, .nothing⟩
  | .remInt2Addr => ⟨0xb4, "rem-int/2addr", .fixed 2, .nothing⟩
  | .andInt2Addr => ⟨0xb5, "and-int/2addr", .fixed 2, .nothing⟩
  | .orInt2Addr => ⟨0xb6, "or-int/2addr", .fixed 2, .nothing⟩
  | .xorInt2Addr => ⟨0xb7, "xor-int/2addr", .fixed 2, .nothing⟩
  | .shlInt2Addr => ⟨0xb8, "shl-int/2addr", .fixed 2, .nothing⟩
  | .shrInt2Addr => ⟨0xb9, "shr-int/2addr", .fixed 2, .nothing⟩
  | .ushrInt2Addr => ⟨0xba, "ushr-int/2addr", .fixed 2, .nothing⟩
  | .addLong2Addr => ⟨0xbb, "add-long/2addr", .fixed 2, .nothing⟩
  | .subLong2Addr => ⟨0xbc, "sub-long/2addr", .fixed 2, .nothing⟩
  | .mulLong2Addr => ⟨0xbd, "mul-long/2addr", .fixed 2, .nothing⟩
  | .divLong2Addr => ⟨0xbe, "div-long/2addr", .fixed 2, .nothing⟩
  | .remLong2Addr => ⟨0xbf, "rem-long/2addr", .fixed 2, .nothing⟩
  | .andLong2Addr => ⟨0xc0, "and-long/2addr", .fixed 2, .nothing⟩
  | .orLong2Addr => ⟨0xc1, "or-long/2addr", .fixed 2, .nothing⟩
  | .xorLong2Addr => ⟨0xc2, "xor-long/2addr", .fixed 2, .nothing⟩
  | .shlLong2Addr => ⟨0xc3, "shl-long/2addr", .fixed 2, .nothing⟩
  | .shrLong2Addr => ⟨0xc4, "shr-long/2addr", .fixed 2, .nothing⟩
  | .ushrLong2Addr => ⟨0xc5, "ushr-long/2addr", .fixed 2, .nothing⟩
  | .addFloat2Addr => ⟨0xc6, "add-float/2addr", .fixed 2, .nothing⟩
  | .subFloat2Addr => ⟨0xc7, "sub-float/2addr", .fixed 2, .nothing⟩
  | .mulFloat2Addr => ⟨0xc8, "mul-float/2addr", .fixed 2, .nothing⟩
  | .divFloat2Addr => ⟨0xc9, "div-float/2addr", .fixed 2, .nothing⟩
  | .remFloat2Addr => ⟨0xca, "rem-float/2addr", .fixed 2, .nothing⟩
  | .addDouble2Addr => ⟨0xcb, "add-double/2addr", .fixed 2, .nothing⟩
  | .subDouble2Addr => ⟨0xcc, "sub-double/2addr", .fixed 2, .nothing⟩
  | .mulDouble2Addr => ⟨0xcd, "mul-double/2addr", .fixed 2, .nothing⟩
  | .divDouble2Addr => ⟨0xce, "div-double/2addr", .fixed 2, .nothing⟩
  | .remDouble2Addr => ⟨0xcf, "rem-double/2addr", .fixed 2, .nothing⟩
  | .addIntLit16 => ⟨0xd0, "add-int/lit16", .fixed 2, .literal⟩
  | .rsubInt => ⟨0xd1, "rsub-int", .fixed 2, .literal⟩
  | .mulIntLit16 => ⟨0xd2, "mul-int/lit16", .fixed 2, .literal⟩
  | .divIntLit16 => ⟨0xd3, "div-int/lit16", .fixed 2, .literal⟩
  | .remIntLit16 => ⟨0xd4, "rem-int/lit16", .fixed 2, .literal⟩
  | .andIntLit16 => ⟨0xd5, "and-int/lit16", .fixed 2, .literal⟩
  | .orIntLit16 => ⟨0xd6, "or-int/lit16", .fixed 2, .literal⟩
  | .xorIntLit16 => ⟨0xd7, "xor-int/lit16", .fixed 2, .literal⟩
  | .addIntLit8 => ⟨0xd8, "add-int/lit8", .fixed 2, .literal⟩
  | .rsubIntLit8 => ⟨0xd9, "rsub-int/lit8", .fixed 2, .literal⟩
  | .mulIntLit8 => ⟨0xda, "mul-int/lit8", .fixed 2, .literal⟩
  | .divIntLit8 => ⟨0xdb, "div-int/lit8", .fixed 2, .literal⟩
  | .remIntLit8 => ⟨0xdc, "rem-int/lit8", .fixed 2, .literal⟩
  | .andIntLit8 => ⟨0xdd, "and-int/lit8", .fixed 2, .literal⟩
  | .orIntLit8 => ⟨0xde, "or-int/lit8", .fixed 2, .literal⟩
  | .xorIntLit8 => ⟨0xdf, "xor-int/lit8", .fixed 2, .literal⟩
  | .shlIntLit8 => ⟨0xe0, "shl-int/lit8", .fixed 2, .literal⟩
  | .shrIntLit8 => ⟨0xe1, "shr-int/lit8", .fixed 2, .literal⟩
  | .ushrIntLit8 => ⟨0xe2, "ushr-int/lit8", .fixed 2, .literal⟩
  | .invokePolymorphic => ⟨0xfa, "invoke-polymorphic", .list, .prototyped⟩
  | .invokePolymorphicRange => ⟨0xfb, "invoke-polymorphic/range", .range, .prototyped⟩
  | .invokeCustom => ⟨0xfc, "invoke-custom", .list, .reference .callSite⟩
  | .invokeCustomRange => ⟨0xfd, "invoke-custom/range", .range, .reference .callSite⟩
  | .constMethodHandle => ⟨0xfe, "const-method-handle", .fixed 1, .reference .methodHandle⟩
  | .constMethodType => ⟨0xff, "const-method-type", .fixed 1, .reference .methodType⟩

/-- All opcodes, in the order of their bytes. -/
def all : List Opcode :=
  [.nop, .move, .moveFrom16, .move16, .moveWide, .moveWideFrom16, .moveWide16, .moveObject,
   .moveObjectFrom16, .moveObject16, .moveResult, .moveResultWide, .moveResultObject,
   .moveException, .returnVoid, .returnValue, .returnWide, .returnObject, .const4, .const16,
   .const, .constHigh16, .constWide16, .constWide32, .constWide, .constWideHigh16, .constString,
   .constStringJumbo, .constClass, .monitorEnter, .monitorExit, .checkCast, .instanceOf,
   .arrayLength, .newInstance, .newArray, .filledNewArray, .filledNewArrayRange, .fillArrayData,
   .throw, .goto, .goto16, .goto32, .packedSwitch, .sparseSwitch, .cmplFloat, .cmpgFloat,
   .cmplDouble, .cmpgDouble, .cmpLong, .ifEq, .ifNe, .ifLt, .ifGe, .ifGt, .ifLe, .ifEqz, .ifNez,
   .ifLtz, .ifGez, .ifGtz, .ifLez, .aget, .agetWide, .agetObject, .agetBoolean, .agetByte,
   .agetChar, .agetShort, .aput, .aputWide, .aputObject, .aputBoolean, .aputByte, .aputChar,
   .aputShort, .iget, .igetWide, .igetObject, .igetBoolean, .igetByte, .igetChar, .igetShort,
   .iput, .iputWide, .iputObject, .iputBoolean, .iputByte, .iputChar, .iputShort, .sget,
   .sgetWide, .sgetObject, .sgetBoolean, .sgetByte, .sgetChar, .sgetShort, .sput, .sputWide,
   .sputObject, .sputBoolean, .sputByte, .sputChar, .sputShort, .invokeVirtual, .invokeSuper,
   .invokeDirect, .invokeStatic, .invokeInterface, .invokeVirtualRange, .invokeSuperRange,
   .invokeDirectRange, .invokeStaticRange, .invokeInterfaceRange, .negInt, .notInt, .negLong,
   .notLong, .negFloat, .negDouble, .intToLong, .intToFloat, .intToDouble, .longToInt,
   .longToFloat, .longToDouble, .floatToInt, .floatToLong, .floatToDouble, .doubleToInt,
   .doubleToLong, .doubleToFloat, .intToByte, .intToChar, .intToShort, .addInt, .subInt, .mulInt,
   .divInt, .remInt, .andInt, .orInt, .xorInt, .shlInt, .shrInt, .ushrInt, .addLong, .subLong,
   .mulLong, .divLong, .remLong, .andLong, .orLong, .xorLong, .shlLong, .shrLong, .ushrLong,
   .addFloat, .subFloat, .mulFloat, .divFloat, .remFloat, .addDouble, .subDouble, .mulDouble,
   .divDouble, .remDouble, .addInt2Addr, .subInt2Addr, .mulInt2Addr, .divInt2Addr, .remInt2Addr,
   .andInt2Addr, .orInt2Addr, .xorInt2Addr, .shlInt2Addr, .shrInt2Addr, .ushrInt2Addr,
   .addLong2Addr, .subLong2Addr, .mulLong2Addr, .divLong2Addr, .remLong2Addr, .andLong2Addr,
   .orLong2Addr, .xorLong2Addr, .shlLong2Addr, .shrLong2Addr, .ushrLong2Addr, .addFloat2Addr,
   .subFloat2Addr, .mulFloat2Addr, .divFloat2Addr, .remFloat2Addr, .addDouble2Addr,
   .subDouble2Addr, .mulDouble2Addr, .divDouble2Addr, .remDouble2Addr, .addIntLit16, .rsubInt,
   .mulIntLit16, .divIntLit16, .remIntLit16, .andIntLit16, .orIntLit16, .xorIntLit16, .addIntLit8,
   .rsubIntLit8, .mulIntLit8, .divIntLit8, .remIntLit8, .andIntLit8, .orIntLit8, .xorIntLit8,
   .shlIntLit8, .shrIntLit8, .ushrIntLit8, .invokePolymorphic, .invokePolymorphicRange,
   .invokeCustom, .invokeCustomRange, .constMethodHandle, .constMethodType]

/-- The byte that an instruction with this opcode begins with. -/
def byte (opcode : Opcode) : Nat := opcode.entry.byte

def mnemonic (opcode : Opcode) : String := opcode.entry.mnemonic

def format (opcode : Opcode) : Format := ⟨opcode.entry.registers, opcode.entry.trailing⟩

def ofByte? (byte : Nat) : Option Opcode := all.find? (·.byte == byte)

def ofMnemonic? (mnemonic : String) : Option Opcode := all.find? (·.mnemonic == mnemonic)

/-- Whether the registers are a list or a range. -/
def takesList (opcode : Opcode) : Bool :=
  match opcode.entry.registers with
  | .fixed _ => false
  | .list | .range => true

/-- Whether the instruction makes a new array of the values in its registers. -/
def isFilledNewArray (opcode : Opcode) : Bool :=
  opcode == filledNewArray || opcode == filledNewArrayRange

def isInvoke (opcode : Opcode) : Bool := opcode.takesList && !opcode.isFilledNewArray

/-- Whether the instruction reads or writes a field. -/
def isFieldAccess (opcode : Opcode) : Bool := 0x52 ≤ opcode.byte && opcode.byte ≤ 0x6d

/-- The kind of reference that the instruction holds, if it holds one. -/
def referenceKind? : Opcode → Option ReferenceKind
  | constString | constStringJumbo => some .string
  | constClass | checkCast | instanceOf | newInstance | newArray | filledNewArray
  | filledNewArrayRange => some .type
  | constMethodHandle => some .methodHandle
  | constMethodType => some .methodType
  | invokeCustom | invokeCustomRange => some .callSite
  | opcode =>
    if opcode.isFieldAccess then some .field
    else if opcode.isInvoke then some .method
    else none

/-- Whether a `move-result` behind the instruction can pick up a value. -/
def setsResult (opcode : Opcode) : Bool := opcode.takesList

def hasPrototype (opcode : Opcode) : Bool := opcode.entry.trailing == .prototyped

def isBranch (opcode : Opcode) : Bool := opcode.entry.trailing == .branch

def isReturn (opcode : Opcode) : Bool :=
  [returnVoid, returnValue, returnWide, returnObject].contains opcode

def isMoveResult (opcode : Opcode) : Bool :=
  [moveResult, moveResultWide, moveResultObject].contains opcode

/-- Whether the literal is a value of 64 bits. -/
def isWideLiteral (opcode : Opcode) : Bool :=
  [constWide16, constWide32, constWide, constWideHigh16].contains opcode

end Opcode

end DexGraft
