import ActorLinks.Decl.Layout

/-! # Emitters

An emitter writes line after line at its depth, and what stands inside another thing at one depth
more. It writes of a declaration just the lines of its layout at the depth of the emitter, and
comes back to that depth.
-/
namespace ActorLinks

structure Emitter where
  width : Nat
  depth : Nat := 0
  written : String := ""

namespace Emitter

/-- An empty line is written without any indentation. -/
def line (e : Emitter) (text : String) : Emitter :=
  if text.isEmpty then { e with written := e.written ++ "\n" }
  else
    let indentation := String.join (List.replicate e.depth (blanks e.width))
    { e with written := e.written ++ indentation ++ text ++ "\n" }

def each (e : Emitter) (texts : List String) : Emitter := texts.foldl line e

/-- Writes something at one depth more. -/
def indented (e : Emitter) (body : Emitter → Emitter) : Emitter :=
  let inner := body { e with depth := e.depth + 1 }
  { inner with depth := inner.depth - 1 }

def block (e : Emitter) (body : List String) : Emitter :=
  ((e.line "\x7b").indented (·.each body)).line "\x7d"

def parameters (e : Emitter) (ps : List Decl.Parameter) : Emitter :=
  e.indented (·.each (Decl.separated (ps.map Decl.Parameter.text)))

def method (e : Emitter) (m : Decl.Method) : Emitter :=
  let (e, last) :=
    if 2 < m.parameters.length then ((e.line (m.head ++ "(")).parameters m.parameters, ")")
    else (e, m.head ++ "(" ++ Decl.joinParameters m.parameters ++ ")")
  match m.body with
  | .declaration => e.line (last ++ ";")
  | .expression text => e.line (last ++ " => " ++ text ++ ";")
  | .block body => (e.line last).block body

def constructor (e : Emitter) (c : Decl.Constructor) : Emitter :=
  let e :=
    if c.parameters.isEmpty then e.line (c.head ++ "()" ++ c.chain)
    else ((e.line (c.head ++ "(")).parameters c.parameters).line (")" ++ c.chain)
  e.block c.body

def leaf (e : Emitter) : Decl.Leaf → Emitter
  | .comment text => e.line ("// " ++ text)
  | .property p => e.line p.text
  | .method m => e.method m
  | .indexer i => e.line i.text
  | .field f => e.line f.text
  | .constructor c => e.constructor c

def header (e : Emitter) (d : TypeDecl) : Emitter :=
  let e := e.each (d.leadingComments.map ("// " ++ ·))
  let e :=
    if d.bases.isEmpty then e.line d.head
    else (e.line (d.head ++ " :")).indented (·.each (Decl.separated d.bases))
  if d.constraints.isEmpty then e else e.indented (·.each d.constraints)

mutual

def type (e : Emitter) : TypeDecl → Emitter
  | ⟨comments, access, modifiers, kind, name, bases, constraints, ms⟩ =>
    let head : TypeDecl := ⟨comments, access, modifiers, kind, name, bases, constraints, []⟩
    (((e.header head).line "\x7b").indented fun e => members e none ms).line "\x7d"

def member (e : Emitter) : Member → Emitter
  | .leaf l => e.leaf l
  | .type d => e.type d

def members (e : Emitter) (before : Option Bool) : List Member → Emitter
  | [] => e
  | m :: ms =>
    let e := if m.isSpaced before then e.line "" else e
    members (e.member m) (some m.standsApart) ms

end

section
variable {e : Emitter}

/-- The emitter when it has gone on to write the lines, wherever they stand. -/
def write (e : Emitter) (ls : List Line) : Emitter :=
  { e with written := e.written ++ Line.renderAll e.width ls }

@[simp] theorem write_nil : e.write [] = e := by
  simp [write, Line.renderAll]

@[simp] theorem write_write (ls ls' : List Line) :
    (e.write ls).write ls' = e.write (ls ++ ls') := by
  simp [write, Line.renderAll_append, String.append_assoc]

@[simp] theorem depth_write (ls : List Line) : (e.write ls).depth = e.depth := rfl

theorem blanks_mul (depth width : Nat) :
    String.join (List.replicate depth (blanks width)) = blanks (depth * width) := by
  apply String.toList_injective
  simp [blanks, String.toList_join, List.flatMap_replicate]

@[simp] theorem line_eq (text : String) : e.line text = e.write [⟨e.depth, text⟩] := by
  unfold line write Line.renderAll
  split <;> simp_all [Line.render, blanks_mul, String.append_assoc]

@[simp] theorem each_eq (texts : List String) :
    e.each texts = e.write (texts.map (Line.mk e.depth)) := by
  induction texts generalizing e with
  | nil => simp [each]
  | cons text texts ih =>
    have hrest := ih (e := e.line text)
    rw [line_eq, depth_write, write_write] at hrest
    rw [each, List.foldl_cons, line_eq]
    exact hrest

/-- The emitter comes back to its depth. -/
theorem indented_eq {body : Emitter → Emitter} {ls : List Line}
    (h : ∀ inner : Emitter, inner.depth = e.depth + 1 → body inner = inner.write ls) :
    e.indented body = e.write ls := by
  rw [indented, h _ rfl]
  rfl

@[simp] theorem indented_write_map (texts : List String) :
    (e.indented fun inner => inner.write (texts.map (Line.mk inner.depth)))
      = e.write (texts.map (Line.mk (e.depth + 1))) :=
  indented_eq fun inner h => by rw [h]

@[simp] theorem block_eq (body : List String) :
    e.block body = e.write (Decl.block e.depth body) := by
  simp [block, Decl.block]

@[simp] theorem parameters_eq (ps : List Decl.Parameter) :
    e.parameters ps = e.write (Decl.parameterLines (e.depth + 1) ps) := by
  simp [parameters, Decl.parameterLines]

@[simp] theorem method_eq (m : Decl.Method) : e.method m = e.write (m.lines e.depth) := by
  unfold method Decl.Method.lines Decl.Method.signature
  by_cases hmany : 2 < m.parameters.length
  · cases m.body <;> simp [hmany]
  · cases m.body <;> simp [hmany]

@[simp] theorem constructor_eq (c : Decl.Constructor) :
    e.constructor c = e.write (c.lines e.depth) := by
  unfold constructor Decl.Constructor.lines Decl.Constructor.signature
  split <;> simp

@[simp] theorem leaf_eq (l : Decl.Leaf) : e.leaf l = e.write (l.lines e.depth) := by
  cases l <;> simp [leaf, Decl.Leaf.lines]

@[simp] theorem header_eq (d : TypeDecl) : e.header d = e.write (d.header e.depth) := by
  have hcomments : Line.mk e.depth ∘ ("// " ++ ·) = fun c => ⟨e.depth, "// " ++ c⟩ := rfl
  unfold header TypeDecl.header
  by_cases hbases : d.bases.isEmpty <;> by_cases hconstraints : d.constraints = [] <;>
    simp [hbases, hconstraints, hcomments]

mutual

theorem type_eq (e : Emitter) : (d : TypeDecl) → e.type d = e.write (d.lines e.depth)
  | ⟨comments, access, modifiers, kind, name, bases, constraints, ms⟩ => by
    have hmembers {outer : Emitter} : (outer.indented fun inner => inner.members none ms)
        = outer.write (memberLines (outer.depth + 1) none ms) :=
      indented_eq fun inner h => by rw [members_eq inner none ms, h]
    rw [type, hmembers]
    simp [TypeDecl.lines]

theorem member_eq (e : Emitter) : (m : Member) → e.member m = e.write (m.lines e.depth)
  | .leaf l => leaf_eq l
  | .type d => type_eq e d

theorem members_eq (e : Emitter) (before : Option Bool) : (ms : List Member) →
    e.members before ms = e.write (memberLines e.depth before ms)
  | [] => write_nil.symm
  | m :: ms => by
    rw [members, member_eq _ m, members_eq _ _ ms, memberLines]
    split <;> simp

end

end

end Emitter

namespace TypeDecl

/-- The text at so many blanks a unit, with a line end behind every line. -/
def render (width : Nat) (d : TypeDecl) : String := (({ width := width } : Emitter).type d).written

theorem render_eq (width : Nat) (d : TypeDecl) :
    d.render width = Line.renderAll width (d.lines 0) := by
  rw [render, Emitter.type_eq]
  exact String.empty_append

end TypeDecl

end ActorLinks
