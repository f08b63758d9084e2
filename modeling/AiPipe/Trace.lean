import Mathlib.Data.List.Basic

/-! The strings of `ChromeTraceSink::toJson`, and a reader of them. -/

namespace AiPipe.ChromeTraceSink

def escaped (character : Char) : List Char :=
  if character = '"' then ['\\', '"']
  else if character = '\\' then ['\\', '\\']
  else if character = '\n' then ['\\', 'n']
  else if character = '\t' then ['\\', 't']
  else if character.toNat < 0x20 then [' ']
  else [character]

def escape (raw : List Char) : List Char := raw.flatMap escaped

def unescape : Char → Option Char
  | '"' => some '"'
  | '\\' => some '\\'
  | 'n' => some '\n'
  | 't' => some '\t'
  | _ => none

/-- The text before the closing quote, and the rest. -/
def readString : List Char → Option (List Char × List Char)
  | '"' :: rest => some ([], rest)
  | '\\' :: code :: rest => do
    let character ← unescape code
    (readString rest).map (Prod.map (character :: ·) id)
  | character :: rest =>
    if character.toNat < 0x20 then none else (readString rest).map (Prod.map (character :: ·) id)
  | [] => none

def blanked (character : Char) : Char :=
  if character.toNat < 0x20 ∧ character ≠ '\n' ∧ character ≠ '\t' then ' ' else character

theorem readString_escaped (character : Char) (text : List Char) :
    readString (escaped character ++ text) =
      (readString text).map (Prod.map (blanked character :: ·) id) := by
  unfold escaped
  split_ifs with quote slash newline tab control
  · subst quote
    rfl
  · subst slash
    rfl
  · subst newline
    rfl
  · subst tab
    rfl
  · simp [readString, blanked, newline, tab, control]
  · simp [readString, blanked, slash, control]

/-- A string ends where the sink closes it, and only control characters other than newline and
tab are lost. -/
theorem readString_escape (raw rest : List Char) :
    readString (escape raw ++ '"' :: rest) = some (raw.map blanked, rest) := by
  induction raw with
  | nil => rfl
  | cons character raw ih =>
    rw [escape, List.flatMap_cons, ← escape, List.append_assoc, readString_escaped, ih]
    rfl

end AiPipe.ChromeTraceSink
