import ActorLinks.Text.LetterCase

/-! # Names

Types are addressed by dotted display names with generic arguments in angle brackets. The
words of a name and the parameter named after a member are read off the same texts.
-/
namespace ActorLinks.Text

def unboundChars (cs : List Char) : List Char := cs.takeWhile (· ≠ '<')

/-- The display name up to its first generic argument list. -/
def unbound (name : String) : String := String.ofList (unboundChars name.toList)

def lastSegment (cs : List Char) : List Char := (cs.reverse.takeWhile (· ≠ '.')).reverse

/-- The last dotted segment of a display name, without generic arguments. -/
def simpleName (name : String) : String :=
  String.ofList (lastSegment (unboundChars name.toList))

/-- Everything before the last dot, or nothing when there is no dot. -/
def qualifier? (cs : List Char) : Option (List Char) :=
  match cs.reverse.dropWhile (· ≠ '.') with
  | _ :: rest => some rest.reverse
  | [] => none

def stripSuffix? (suffix name : String) : Option String :=
  let cs := name.toList
  if suffix.toList.isSuffixOf cs then some (String.ofList (cs.take (cs.length - suffix.length)))
  else none

theorem stripSuffix?_eq_some {suffix name rest : String} :
    stripSuffix? suffix name = some rest ↔ name = rest ++ suffix := by
  have hlength : suffix.length = suffix.toList.length := String.length_toList.symm
  unfold stripSuffix?
  rw [hlength]
  simp only [Option.ite_none_right_eq_some, Option.some.injEq, List.isSuffixOf_iff_suffix]
  constructor
  · rintro ⟨⟨cs, hcs⟩, rfl⟩
    apply String.toList_injective
    simp [← hcs]
  · rintro rfl
    rw [String.toList_append]
    exact ⟨List.suffix_append _ _, by simp⟩

/-- Leaves out every occurrence of `word`, read from the left; `skip` counts characters of an
occurrence that are still to be passed over. -/
def eraseWord (word : List Char) (skip : Nat) : List Char → List Char
  | [] => []
  | c :: cs =>
    match skip with
    | k + 1 => eraseWord word k cs
    | 0 =>
      if word.isPrefixOf (c :: cs) then eraseWord word (word.length - 1) cs
      else c :: eraseWord word 0 cs

def erase (word name : String) : String := String.ofList (eraseWord word.toList 0 name.toList)

/-- Drops a first character of one byte; a name that starts otherwise becomes empty. -/
def dropFirstByte (name : String) : String :=
  match name.toList with
  | c :: cs => if c.utf8Size = 1 then String.ofList cs else ""
  | [] => ""

def isWordStart (c : Char) : Bool := 'A' ≤ c && c ≤ 'Z'

def isWordRest (c : Char) : Bool := ('a' ≤ c && c ≤ 'z') || ('0' ≤ c && c ≤ '9')

def closeWord (word : List Char) : List (List Char) := if word.isEmpty then [] else [word]

/-- `word` is the word read so far. -/
def wordsFrom (word : List Char) : List Char → List (List Char)
  | [] => closeWord word
  | c :: cs =>
    if isWordStart c then closeWord word ++ wordsFrom [c] cs
    else if isWordRest c then wordsFrom (word ++ [c]) cs
    else closeWord word ++ wordsFrom [] cs

/-- The words of a Pascal-case identifier: a capital starts one, and any character other than
an ASCII letter or digit ends one. -/
def nameParts (name : String) : List String := (wordsFrom [] name.toList).map String.ofList

/-- The capitals that a parameter name writes small: the leading run of characters that are not
lower-case, without the one that starts the next word. -/
def leadingRun (cs : List Char) : Nat :=
  let run := (cs.takeWhile fun c => !isLowercase c).length
  if run = cs.length then run else if 1 < run then run - 1 else run

def stripUnderscore : List Char → List Char
  | '_' :: cs => cs
  | cs => cs

/-- The parameter named after a member: `ActorProvider` gives `actorProvider`, `IDValue` gives
`idValue`. -/
def parameterName (member : String) : String :=
  let cs := stripUnderscore member.toList
  let run := leadingRun cs
  String.ofList (lowercase (cs.take run) ++ cs.drop run)

end ActorLinks.Text
