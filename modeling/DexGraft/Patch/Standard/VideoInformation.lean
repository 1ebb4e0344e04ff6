import DexGraft.Edit.Blueprint
import DexGraft.Patch.Standard.Landmarks
import DexGraft.Patch.Standard.SharedResources

/-!
# Video information

The patch that tells the integrations about the video that is played: its id, its length and the time
it has reached. It leaves four hook points to other patches: behind the super constructor call of the
player controller, at the entry of the controller's time update, and behind the two places at which
the video id is read.
-/

namespace DexGraft.Patch.Standard

namespace VideoInformation

def playerInitHook : String := "video-information/player-init"

def videoTimeHook : String := "video-information/video-time"

def videoIdHook : String := "video-information/video-id"

def backgroundVideoIdHook : String := "video-information/background-video-id"

/-- Has a method called with each new player controller. -/
def onCreate (owner method : String) : Patching Unit := do
  let _ ← Patching.inject playerInitHook s!"{owner}->{method}(Ljava/lang/Object;)V"

/-- Has a method called with the time, about once a second. -/
def onVideoTime (owner method : String) : Patching Unit := do
  let _ ← Patching.inject videoTimeHook s!"{owner}->{method}(J)V"

/-- Has a method called with the id of every new video. -/
def onVideoId (descriptor : String) : Patching Unit := do
  let _ ← Patching.inject videoIdHook descriptor

/-- Has a method called with the video id that is handed to background playback. -/
def onBackgroundVideoId (descriptor : String) : Patching Unit := do
  let _ ← Patching.inject backgroundVideoIdHook descriptor

/-- The register behind the given one. -/
def registerBehind (register : Register) : Except Error Register :=
  if register.toNat + 1 < UInt16.size then .ok (register + 1) else .error .registerOverflow

/-- Whether an instruction is a constructor call on the object in the given register. -/
def isConstructorCall (this : Register) (instruction : Instruction) : Bool :=
  (instruction.opcode == .invokeDirect || instruction.opcode == .invokeDirectRange) &&
  instruction.methodRef?.any (·.name == "<init>") &&
  instruction.registers.head? == some this

/-- The point behind the super constructor call of a class's first constructor. -/
def playerInitPoint (pool : ClassPool) (inClass : Nat) : Except Error HookPoint := do
  let cls ← pool.classAt inClass
  match cls.findConstructor? with
  | none => .error (.methodNotFound s!"{cls.descriptor}-><init>")
  | some index =>
    let id : MethodId := ⟨inClass, index⟩
    let method ← pool.method id
    match method.parameterRegister? 0 with
    | none => .error (.invalidMethod (.noReceiver method.descriptor))
    | some this =>
      match method.findIndex? (isConstructorCall this) with
      | none => .error (.invalidMethod (.noSuperConstructorCall method.descriptor))
      | some call => HookPoint.after id method call [this]

def hookPlayerController : Patching Unit := do
  let controller ← Patching.resolution Landmark.videoEnd.name
  let point ← Editing.look fun context => playerInitPoint context.pool controller.inClass
  Patching.registerHook playerInitHook point

/-- The body of the method that seeks with the default source. -/
def seekText (controller seek source : String) : String :=
  s!"sget-object v0, {source}->a:{source}\n" ++
    s!"invoke-virtual \x7bp0, p1, p2, v0\x7d, {controller}->{seek}(J{source})Z\n" ++
    "move-result p1\nreturn p1"

/-- Gives the player controller a method that seeks with the default source. -/
def addSeekHelper : Patching Unit := do
  let videoEnd ← Patching.resolution Landmark.videoEnd.name
  let controller ← Editing.look fun context => do
    .ok (← context.pool.classAt videoEnd.inClass).descriptor
  let seek ← Patching.method videoEnd.method
  let helper ← Editing.look fun _ =>
    match seek.parameters[1]? with
    | none => .error (.invalidMethod (.noSeekSource seek.descriptor))
    | some source =>
      Blueprint.build
        { name := "seekTo"
          returnType := "Z"
          parameters := ["J"]
          flags := AccessFlags.publicFlag.union .finalFlag
          registers := some 4
          body := some (seekText controller seek.name source) }
        controller
  let _ ← Patching.addMethod videoEnd.inClass helper

/-- Text that reports the length in two registers. -/
def lengthText (video : String) (low high : Register) : String :=
  let low := low.text
  let high := high.text
  s!"invoke-static \x7b{low}, {high}\x7d, {video}->setVideoLength(J)V"

/-- Reports the length behind the instruction at `index`, which takes it. -/
def insertLengthReport (video : String) (index : Nat) : Editing Method Unit := do
  let low ← Editing.look (·.registerAt index)
  let high ← Editing.look fun _ => registerBehind low
  Method.insertTextM (index + 1) (lengthText video low high)

def hookVideoLength (video : String) : Patching Unit := do
  let length ← Patching.resolution Landmark.videoLength.name
  let window ← Editing.look fun _ => length.window
  Patching.edit length.method (insertLengthReport video (window.first + 1))

/-- The point at the entry of a method whose first parameter is the time. -/
def videoTimePoint (id : MethodId) (method : Method) : Except Error HookPoint :=
  match method.parameters.head?, method.parameterRegister? (if method.isStatic then 0 else 1) with
  | some "J", some register => do
    .ok (HookPoint.atEntry id [register, ← registerBehind register])
  | _, _ => .error (.invalidMethod (.noTimeParameter method.descriptor))

def hookVideoTime : Patching Unit := do
  let reference ← Patching.resolution Landmark.playerControllerSetTimeReference.name
  let point ← Editing.look fun context => do
    let walker ← (context.walker reference.method).followAt (← reference.window).first
    videoTimePoint walker.current (← walker.method)
  Patching.registerHook videoTimeHook point

def hookBackgroundPlayback : Patching Unit := do
  let resolution ← Patching.resolution Landmark.backgroundPlaybackVideoId.name
  let point ← Editing.look fun context => do
    let last := (← resolution.window).last
    let method ← context.pool.method resolution.method
    HookPoint.after resolution.method method last [← method.registerAt last]
  Patching.registerHook backgroundVideoIdHook point

/-- The type of the field that the instruction at `index` reads. -/
def fieldTypeAt (method : Method) (index : Nat) : Except Error String := do
  let instruction ← method.instruction index
  match instruction.fieldRef? with
  | some field => .ok field.type
  | none => .error (method.unexpected index .fieldReference instruction)

/-- Whether an instruction calls an interface method that gives a string. -/
def isStringCall (instruction : Instruction) : Bool :=
  instruction.opcode == .invokeInterface &&
  instruction.methodRef?.any (·.returnType == "Ljava/lang/String;")

/-- The point behind the last place at which a method takes a string from an interface. -/
def videoIdPoint (id : MethodId) (method : Method) : Except Error HookPoint :=
  match method.findLastIndex? isStringCall with
  | none => .error (.invalidMethod (.noStringId method.descriptor))
  | some call => do
    let result ← method.instruction (call + 1)
    if result.opcode = .moveResultObject then
      HookPoint.after id method (call + 1) [← method.registerAt (call + 1)]
    else .error (method.unexpected (call + 1) (.opcode Opcode.moveResultObject.mnemonic) result)

/-- The method that handles the stages of a video. -/
def stageHandler : String := "handleVideoStageEvent"

def hookVideoId : Patching Unit := do
  let parent ← Patching.resolution Landmark.videoIdParent.name
  let point ← Editing.look fun context => do
    let last := (← parent.window).last
    let stageClass ← fieldTypeAt (← context.pool.method parent.method) last
    let inClass ← context.findClass stageClass
    match context.pool.findNamed? inClass stageHandler with
    | none => .error (.methodNotFound s!"{stageClass}->{stageHandler}")
    | some id => videoIdPoint id (← context.pool.method id)
  Patching.registerHook videoIdHook point

def execute : Patching Unit := do
  let video := (← get).config.videoClass
  hookPlayerController
  onCreate video "initialize"
  addSeekHelper
  hookVideoLength video
  hookVideoTime
  onVideoTime video "setVideoTime"
  hookBackgroundPlayback
  hookVideoId
  onVideoId s!"{video}->setVideoId(Ljava/lang/String;)V"

end VideoInformation

def videoInformation : Patch where
  name := "video-information"
  dependencies := [sharedResourceIds.name]
  fingerprints := fun context => do
    let markerColor ← context.sharedResourceId "InlineTimeBarAdBreakMarkerColor"
    .ok [Landmark.videoEnd, Landmark.seekBarConstructor markerColor, Landmark.videoLength,
      Landmark.playerControllerSetTimeReference, Landmark.backgroundPlaybackVideoIdParent,
      Landmark.backgroundPlaybackVideoId, Landmark.videoIdParent]
  execute := VideoInformation.execute

end DexGraft.Patch.Standard
