/-!
# Quoted text

Text between double quotes. A quote and a backslash inside are written behind a backslash, a line
feed as `\n` and a tab as `\t`; reading takes a backslash in front of any other character away.
-/

namespace DexGraft.Text.Quoted

/-- The text as it stands between the quotes. -/
def escape : List Char → List Char
  | [] => []
  | '"' :: cs => '\\' :: '"' :: escape cs
  | '\\' :: cs => '\\' :: '\\' :: escape cs
  | '\n' :: cs => '\\' :: 'n' :: escape cs
  | '\t' :: cs => '\\' :: 't' :: escape cs
  | c :: cs => c :: escape cs

/-- The text that stands between the quotes; a backslash must have a character behind it. -/
def unescape? : List Char → Option (List Char)
  | [] => some []
  | ['\\'] => none
  | '\\' :: 'n' :: cs => (unescape? cs).map ('\n' :: ·)
  | '\\' :: 't' :: cs => (unescape? cs).map ('\t' :: ·)
  | '\\' :: c :: cs => (unescape? cs).map (c :: ·)
  | c :: cs => (unescape? cs).map (c :: ·)

/-- The text between double quotes. -/
def quote (cs : List Char) : List Char := '"' :: escape cs ++ ['"']

/-- The text that was quoted; a quote must stand at either end. -/
def unquote? : List Char → Option (List Char)
  | '"' :: cs => if cs.getLast? = some '"' then unescape? cs.dropLast else none
  | _ => none

@[simp] theorem unescape?_escape (cs : List Char) : unescape? (escape cs) = some cs := by
  fun_induction escape cs <;> simp_all [unescape?]

@[simp] theorem unquote?_quote (cs : List Char) : unquote? (quote cs) = some cs := by
  simp [quote, unquote?]

end DexGraft.Text.Quoted
