import ActorLinks.Text.Digit

/-! # Quoted strings of TOML

A string is basic, with escapes, or literal, without; either may be tripled to run over several
lines. A text is written in the first of the four forms that holds it as it stands, and with
escapes if none does.
-/
namespace ActorLinks.Toml

def isBlank (c : Char) : Bool := c = ' ' || c = '\t'

def skipBlanks (cs : List Char) : List Char := cs.dropWhile isBlank

/-- Tabs and everything that is not a control character. -/
def isVisible (c : Char) : Bool := c = '\t' || (' ' ≤ c && c ≠ '\x7f')

def isPlain (c : Char) : Bool := isVisible c && c ≠ '"' && c ≠ '\\'

def isLiteral (c : Char) : Bool := isVisible c && c ≠ '\''

def shortEscape? : Char → Option Char
  | '"' => some '"'
  | '\\' => some '\\'
  | 'b' => some '\x08'
  | 'f' => some '\x0c'
  | 'n' => some '\n'
  | 'r' => some '\r'
  | 't' => some '\t'
  | _ => none

def codePoint? (digits : List Char) : Option Char := do
  let n ← Text.hexValue? digits
  if n.isValidChar then some (Char.ofNat n) else none

/-- What a backslash stands for, and what follows. -/
def escaped? : List Char → Option (Char × List Char)
  | 'u' :: a :: b :: c :: d :: rest => (codePoint? [a, b, c, d]).map fun e => (e, rest)
  | 'U' :: a :: b :: c :: d :: e :: f :: g :: h :: rest =>
    (codePoint? [a, b, c, d, e, f, g, h]).map fun e => (e, rest)
  | c :: rest => (shortEscape? c).map fun e => (e, rest)
  | [] => none

theorem escaped?_length {cs rest : List Char} {c : Char} (h : escaped? cs = some (c, rest)) :
    rest.length < cs.length := by
  unfold escaped? at h
  split at h <;> simp at h <;> obtain ⟨_, _, _, rfl⟩ := h <;> simp <;> omega

/-- Past a line end that is escaped, and the blank lines and margin behind it. -/
def continued? (cs : List Char) : Option (List Char) :=
  match skipBlanks cs with
  | '\n' :: rest => some (rest.dropWhile fun c => isBlank c || c = '\n')
  | _ => none

theorem continued?_length {cs rest : List Char} (h : continued? cs = some rest) :
    rest.length < cs.length := by
  unfold continued? at h
  split at h
  · next r hr =>
    have hb := (List.dropWhile_suffix (l := cs) isBlank).length_le
    have hd := (List.dropWhile_suffix (l := r) fun c => isBlank c || c = '\n').length_le
    simp only [skipBlanks] at hr
    simp only [Option.some.injEq] at h
    subst h
    rw [hr, List.length_cons] at hb
    omega
  · exact absurd h (by simp)

/-- What a basic string holds behind its opening quote, and what follows its closing quote. -/
def basicBody (cs : List Char) : Option (List Char × List Char) :=
  match cs with
  | [] => none
  | '"' :: rest => some ([], rest)
  | '\\' :: rest =>
    match _h : escaped? rest with
    | some (c, after) => (basicBody after).map fun (s, r) => (c :: s, r)
    | none => none
  | c :: rest => if isPlain c then (basicBody rest).map fun (s, r) => (c :: s, r) else none
  termination_by cs.length
  decreasing_by
    · have := escaped?_length _h; simp; omega
    · simp

def literalBody : List Char → Option (List Char × List Char)
  | [] => none
  | '\'' :: rest => some ([], rest)
  | c :: rest => if isLiteral c then (literalBody rest).map fun (s, r) => (c :: s, r) else none

/-- Up to two quotes may stand directly before the three closing ones. -/
def closing? (q : Char) (cs : List Char) : Option (List Char × List Char) :=
  let run := (cs.takeWhile (· == q)).length
  let extra := min (run - 3) 2
  if run < 3 then none else some (List.replicate extra q, cs.drop (3 + extra))

def basicLines (cs : List Char) : Option (List Char × List Char) :=
  match closing? '"' cs, cs with
  | some result, _ => some result
  | none, [] => none
  | none, '\\' :: rest =>
    match _h : escaped? rest, _h' : continued? rest with
    | some (c, after), _ => (basicLines after).map fun (s, r) => (c :: s, r)
    | none, some after => basicLines after
    | none, none => none
  | none, c :: rest =>
    if isPlain c || c = '"' || c = '\n' then (basicLines rest).map fun (s, r) => (c :: s, r)
    else none
  termination_by cs.length
  decreasing_by
    · have := escaped?_length _h; simp; omega
    · have := continued?_length _h'; simp; omega
    · simp

def literalLines (cs : List Char) : Option (List Char × List Char) :=
  match closing? '\'' cs, cs with
  | some result, _ => some result
  | none, [] => none
  | none, c :: rest =>
    if isVisible c || c = '\n' then (literalLines rest).map fun (s, r) => (c :: s, r) else none

/-- A line end directly behind three opening quotes is no part of the string. -/
def dropFirstBreak : List Char → List Char
  | '\n' :: rest => rest
  | cs => cs

/-- Reads a string that may not run over several lines. -/
def line? : List Char → Option (String × List Char)
  | '"' :: rest => (basicBody rest).map fun (s, r) => (String.ofList s, r)
  | '\'' :: rest => (literalBody rest).map fun (s, r) => (String.ofList s, r)
  | _ => none

def string? : List Char → Option (String × List Char)
  | '"' :: '"' :: '"' :: rest =>
    (basicLines (dropFirstBreak rest)).map fun (s, r) => (String.ofList s, r)
  | '\'' :: '\'' :: '\'' :: rest =>
    (literalLines (dropFirstBreak rest)).map fun (s, r) => (String.ofList s, r)
  | cs => line? cs

def escape (c : Char) : List Char :=
  match c with
  | '"' => ['\\', '"']
  | '\\' => ['\\', '\\']
  | '\x08' => ['\\', 'b']
  | '\x0c' => ['\\', 'f']
  | '\n' => ['\\', 'n']
  | '\r' => ['\\', 'r']
  | '\t' => ['\\', 't']
  | c =>
    if isVisible c then [c]
    else ['\\', 'u', '0', '0', Text.upperHexChar (c.toNat / 16), Text.upperHexChar (c.toNat % 16)]

/-- Escapes what three basic quotes do not hold; `quotes` counts those directly before. -/
def escapeLines (quotes : Nat) : List Char → List Char
  | [] => []
  | '\n' :: rest => '\n' :: escapeLines 0 rest
  | '"' :: rest =>
    if quotes < 2 then '"' :: escapeLines (quotes + 1) rest
    else escape '"' ++ escapeLines 0 rest
  | c :: rest => escape c ++ escapeLines 0 rest

def hasTriple (q : Char) : List Char → Bool
  | [] => false
  | c :: rest => (c = q && [q, q].isPrefixOf rest) || hasTriple q rest

def fitsBasicLines (s : List Char) : Bool :=
  (s.all fun c => (isVisible c && c ≠ '\\') || c = '\n') && !hasTriple '"' s

def fitsLiteralLines (s : List Char) : Bool :=
  (s.all fun c => isVisible c || c = '\n') && !hasTriple '\'' s

/-- A text in three quotes begins on a line of its own if it has several lines. -/
def tripled (q : Char) (body : List Char) : List Char :=
  let quotes := List.replicate 3 q
  quotes ++ (if body.contains '\n' then ['\n'] else []) ++ body ++ quotes

/-- The written form of a text as a value. -/
def quote (s : List Char) : List Char :=
  if s.all isPlain then ['"'] ++ s.flatMap escape ++ ['"']
  else if s.all isLiteral then ['\''] ++ s ++ ['\'']
  else if fitsBasicLines s then tripled '"' (escapeLines 0 s)
  else if fitsLiteralLines s then tripled '\'' s
  else if s.contains '\n' then tripled '"' (escapeLines 0 s)
  else ['"'] ++ s.flatMap escape ++ ['"']

def isBare (c : Char) : Bool := c.isAlphanum || c = '_' || c = '-'

/-- The written form of a text as a key, which stays on one line. -/
def quoteKey (s : List Char) : List Char :=
  if !s.isEmpty && s.all isBare then s
  else if !s.all isPlain && s.all isLiteral then ['\''] ++ s ++ ['\'']
  else ['"'] ++ s.flatMap escape ++ ['"']

def key? (cs : List Char) : Option (String × List Char) :=
  match cs with
  | '"' :: _ | '\'' :: _ => line? cs
  | _ =>
    let name := cs.takeWhile isBare
    if name.isEmpty then none else some (String.ofList name, cs.dropWhile isBare)

end ActorLinks.Toml
