import ActorLinks.Decl.Emitter
import Mathlib.Data.List.Basic

/-! # Indentation

A declaration is laid out at any depth as at the top, only that each line is so much deeper. If
none of its texts is broken over lines, what is written of it is its own text set in, and the
widths of the units show in the blanks at the starts of the lines only.
-/
namespace ActorLinks

namespace Text

/-- The text stands on one line. -/
def Unbroken (text : String) : Prop := '\n' ∉ text.toList

section
variable {s t : String}

@[simp] theorem unbroken_append : Unbroken (s ++ t) ↔ Unbroken s ∧ Unbroken t := by
  simp [Unbroken]

@[simp] theorem unbroken_join {texts : List String} :
    Unbroken (String.join texts) ↔ ∀ s ∈ texts, Unbroken s := by
  simp [Unbroken, String.toList_join]

theorem unbroken_intercalate {texts : List String} (hs : Unbroken s)
    (htexts : ∀ t ∈ texts, Unbroken t) : Unbroken (s.intercalate texts) := by
  induction texts with
  | nil => simp [Unbroken]
  | cons t texts ih =>
    rw [List.forall_mem_cons] at htexts
    cases texts with
    | nil => simpa using htexts.1
    | cons u texts =>
      rw [String.intercalate_cons_cons]
      simp [hs, htexts.1, ih htexts.2]

theorem unbroken_blanks (n : Nat) : Unbroken (blanks n) := by
  simp [Unbroken, blanks]

end

/-- The lines of a text; one that ends in a line end has an empty last line. -/
def lines (text : String) : List (List Char) := text.toList.splitOn '\n'

/-- Puts blanks before a line, unless it is empty. -/
def setInLine (n : Nat) (line : List Char) : List Char :=
  if line.isEmpty then [] else List.replicate n ' ' ++ line

/-- Sets in every line of the text. -/
def setIn (n : Nat) (text : String) : String :=
  String.ofList (['\n'].intercalate ((lines text).map (setInLine n)))

/-- The line from its first character on that is not a blank. -/
def dropIndentation (line : List Char) : List Char := line.dropWhile (· = ' ')

end Text

namespace Line
variable {ls : List Line}

/-- The line so many units deeper. -/
def deeper (n : Nat) (l : Line) : Line := { l with depth := l.depth + n }

theorem toList_render (width : Nat) (l : Line) :
    (l.render width).toList = Text.setInLine (l.depth * width) l.text.toList := by
  unfold render Text.setInLine
  by_cases hempty : l.text = ""
  · simp [hempty]
  · simp [hempty, blanks]

theorem toList_render_deeper (width n : Nat) (l : Line) :
    ((l.deeper n).render width).toList = Text.setInLine (n * width) (l.render width).toList := by
  rw [toList_render, toList_render]
  unfold deeper Text.setInLine
  by_cases hempty : l.text.toList.isEmpty
  · simp [hempty]
  · rw [if_neg hempty, if_neg hempty, if_neg (by simp_all), Nat.add_comm, Nat.add_mul,
      List.replicate_add, List.append_assoc]

theorem toList_renderAll (width : Nat) (ls : List Line) : (renderAll width ls).toList
    = ['\n'].intercalate (ls.map (fun l => (l.render width).toList) ++ [[]]) := by
  induction ls with
  | nil => rfl
  | cons l ls ih =>
    have hrest : ∃ line lines, ls.map (fun l => (l.render width).toList) ++ [[]] = line :: lines :=
      List.exists_cons_of_ne_nil (by simp)
    obtain ⟨line, lines, hlines⟩ := hrest
    rw [hlines] at ih
    rw [renderAll, List.map_cons, String.join_cons, ← renderAll, String.toList_append, ih,
      List.map_cons, List.cons_append, hlines, List.intercalate_cons_cons]
    simp

/-- Lines whose texts are unbroken can be read off what is written of them. -/
theorem lines_renderAll (width : Nat) (h : ∀ l ∈ ls, Text.Unbroken l.text) :
    Text.lines (renderAll width ls) = ls.map (fun l => (l.render width).toList) ++ [[]] := by
  rw [Text.lines, toList_renderAll]
  refine List.splitOn_intercalate _ (fun line hline => ?_) (by simp)
  rcases List.mem_append.mp hline with hmem | hlast
  · obtain ⟨l, hl, rfl⟩ := List.mem_map.mp hmem
    change Text.Unbroken (l.render width)
    unfold render
    split
    · exact List.not_mem_nil
    · exact Text.unbroken_append.mpr ⟨Text.unbroken_blanks _, h l hl⟩
  · rw [List.mem_singleton.mp hlast]
    exact List.not_mem_nil

theorem setIn_renderAll (width n : Nat) (h : ∀ l ∈ ls, Text.Unbroken l.text) :
    Text.setIn (n * width) (renderAll width ls) = renderAll width (ls.map (deeper n)) := by
  apply String.toList_injective
  rw [Text.setIn, String.toList_ofList, lines_renderAll width h, toList_renderAll, List.map_append,
    List.map_map, List.map_map]
  congr 2
  exact List.map_congr_left fun l _ => (toList_render_deeper width n l).symm

/-- Widths differ in blanks only. -/
theorem dropIndentation_render (width : Nat) (l : Line) :
    Text.dropIndentation (l.render width).toList = Text.dropIndentation l.text.toList := by
  have hblanks (n : Nat) (line : List Char) :
      Text.dropIndentation (List.replicate n ' ' ++ line) = Text.dropIndentation line := by
    unfold Text.dropIndentation
    rw [List.dropWhile_append_of_pos]
    intro c hc
    simpa using List.eq_of_mem_replicate hc
  rw [toList_render, Text.setInLine]
  split
  · next hempty => rw [List.isEmpty_iff.mp hempty]
  · exact hblanks _ _

end Line

section Deeper
variable (depth n : Nat)

@[simp] theorem deeper_mk (text : String) : Line.deeper n ⟨depth, text⟩ = ⟨depth + n, text⟩ := rfl

@[simp] theorem map_deeper_mk (texts : List String) :
    (texts.map (Line.mk depth)).map (Line.deeper n) = texts.map (Line.mk (depth + n)) := by
  rw [List.map_map]
  rfl

theorem add_one_right_comm : depth + 1 + n = depth + n + 1 := Nat.add_right_comm depth 1 n

namespace Decl

@[simp] theorem map_deeper_block (body : List String) :
    (block depth body).map (Line.deeper n) = block (depth + n) body := by
  simp only [block, List.map_append, List.map_cons, map_deeper_mk, List.map_nil, deeper_mk,
    add_one_right_comm]

@[simp] theorem map_deeper_parameterLines (ps : List Parameter) :
    (parameterLines depth ps).map (Line.deeper n) = parameterLines (depth + n) ps :=
  map_deeper_mk depth n _

theorem Method.map_deeper_lines (m : Method) :
    (m.lines depth).map (Line.deeper n) = m.lines (depth + n) := by
  unfold lines signature
  by_cases hmany : 2 < m.parameters.length <;> cases m.body <;> simp [hmany, add_one_right_comm]

theorem Constructor.map_deeper_lines (c : Constructor) :
    (c.lines depth).map (Line.deeper n) = c.lines (depth + n) := by
  unfold lines signature
  split <;> simp [add_one_right_comm]

@[simp] theorem Leaf.map_deeper_lines (l : Leaf) :
    (l.lines depth).map (Line.deeper n) = l.lines (depth + n) := by
  cases l with
  | method m => exact m.map_deeper_lines depth n
  | constructor c => exact c.map_deeper_lines depth n
  | _ => rfl

end Decl

@[simp] theorem TypeDecl.map_deeper_header (d : TypeDecl) :
    (d.header depth).map (Line.deeper n) = d.header (depth + n) := by
  unfold header
  by_cases hbases : d.bases.isEmpty <;> simp [hbases, Function.comp_def, add_one_right_comm]

mutual

theorem TypeDecl.map_deeper_lines (depth n : Nat) :
    (d : TypeDecl) → (d.lines depth).map (Line.deeper n) = d.lines (depth + n)
  | ⟨comments, access, modifiers, kind, name, bases, constraints, ms⟩ => by
    have hmembers := map_deeper_memberLines (depth + 1) n none ms
    simp [TypeDecl.lines, hmembers, add_one_right_comm]

theorem Member.map_deeper_lines (depth n : Nat) :
    (m : Member) → (m.lines depth).map (Line.deeper n) = m.lines (depth + n)
  | .leaf l => l.map_deeper_lines depth n
  | .type d => d.map_deeper_lines depth n

theorem map_deeper_memberLines (depth n : Nat) (before : Option Bool) : (ms : List Member) →
    (memberLines depth before ms).map (Line.deeper n) = memberLines (depth + n) before ms
  | [] => rfl
  | m :: ms => by
    have hfirst := Member.map_deeper_lines depth n m
    have hrest := map_deeper_memberLines depth n (some m.standsApart) ms
    rw [memberLines, memberLines]
    split <;> simp [hfirst, hrest]

end

end Deeper

/-! ## Texts -/

namespace Decl

def Parameter.texts (p : Parameter) : List String := p.typeName :: p.name :: p.default.toList

def PropertyBody.texts : PropertyBody → List String
  | .get => []
  | .expression text => [text]

def Property.texts (p : Property) : List String :=
  p.typeName :: p.name :: p.explicitInterface.toList ++ p.body.texts

def MethodBody.texts : MethodBody → List String
  | .declaration => []
  | .expression text => [text]
  | .block body => body

def Method.texts (m : Method) : List String :=
  m.returnType :: m.name :: m.explicitInterface.toList ++ m.parameters.flatMap Parameter.texts
    ++ m.body.texts

def Indexer.texts (i : Indexer) : List String :=
  i.typeName :: i.expression :: i.explicitInterface.toList ++ i.parameters.flatMap Parameter.texts

def Field.texts (f : Field) : List String := f.typeName :: f.name :: f.initializer.toList

def Constructor.texts (c : Constructor) : List String :=
  c.name :: c.parameters.flatMap Parameter.texts ++ c.baseArguments.getD [] ++ c.body

def Leaf.texts : Leaf → List String
  | .comment text => [text]
  | .property p => p.texts
  | .method m => m.texts
  | .indexer i => i.texts
  | .field f => f.texts
  | .constructor c => c.texts

end Decl

mutual

/-- All texts of which the declaration is made, at whatever depth. -/
def TypeDecl.texts : TypeDecl → List String
  | ⟨comments, _, _, _, name, bases, constraints, ms⟩ =>
    comments ++ name :: bases ++ constraints ++ memberTexts ms

def Member.texts : Member → List String
  | .leaf l => l.texts
  | .type d => d.texts

def memberTexts : List Member → List String
  | [] => []
  | m :: ms => m.texts ++ memberTexts ms

end

section Unbroken
open Text
variable {depth : Nat}

namespace Decl

theorem unbroken_keywords (a : Accessibility) (ms : Modifiers) : Unbroken (keywords a ms) := by
  have haccess : ∀ word ∈ a.keyword?, Unbroken word := by
    cases a <;> simp [Accessibility.keyword?, Unbroken]
  have hmodifier (m : Modifier) : Unbroken m.keyword := by
    cases m <;> simp [Modifier.keyword, Unbroken]
  simp_all [keywords, Unbroken, String.toList_join]

theorem unbroken_qualified {interface : Option String} {name : String}
    (hinterface : ∀ i ∈ interface, Unbroken i) (hname : Unbroken name) :
    Unbroken (qualified interface name) := by
  cases interface <;> simp_all [qualified, Unbroken]

theorem Parameter.unbroken_text {p : Parameter} (h : ∀ s ∈ p.texts, Unbroken s) :
    Unbroken p.text := by
  unfold text
  split <;> simp_all [texts, Unbroken]

theorem unbroken_joinParameters {ps : List Parameter}
    (h : ∀ s ∈ ps.flatMap Parameter.texts, Unbroken s) : Unbroken (joinParameters ps) := by
  refine unbroken_intercalate (by simp [Unbroken]) fun text htext => ?_
  obtain ⟨p, hp, rfl⟩ := List.mem_map.mp htext
  exact p.unbroken_text fun s hs => h s (List.mem_flatMap.mpr ⟨p, hp, hs⟩)

theorem unbroken_separated {texts : List String} (h : ∀ s ∈ texts, Unbroken s) :
    ∀ s ∈ separated texts, Unbroken s := by
  induction texts using separated.induct with
  | case1 => simp [separated]
  | case2 s => simpa [separated] using h
  | case3 s rest hrest ih =>
    rw [List.forall_mem_cons] at h
    rw [separated, List.forall_mem_cons]
    · exact ⟨unbroken_append.mpr ⟨h.1, by simp [Unbroken]⟩, ih h.2⟩
    · exact hrest

theorem unbroken_block {body : List String} (h : ∀ s ∈ body, Unbroken s) :
    ∀ l ∈ block depth body, Unbroken l.text := by
  have hbraces : Unbroken "\x7b" ∧ Unbroken "\x7d" := by simp [Unbroken]
  simpa [block, or_imp, forall_and, hbraces] using h

theorem unbroken_parameterLines {ps : List Parameter}
    (h : ∀ s ∈ ps.flatMap Parameter.texts, Unbroken s) :
    ∀ l ∈ parameterLines depth ps, Unbroken l.text := by
  have htexts : ∀ s ∈ separated (ps.map Parameter.text), Unbroken s := by
    refine unbroken_separated fun text htext => ?_
    obtain ⟨p, hp, rfl⟩ := List.mem_map.mp htext
    exact p.unbroken_text fun s hs => h s (List.mem_flatMap.mpr ⟨p, hp, hs⟩)
  simpa [parameterLines] using htexts

theorem Property.unbroken_text {p : Property} (h : ∀ s ∈ p.texts, Unbroken s) :
    Unbroken p.text := by
  have hkeywords := unbroken_keywords p.accessibility p.modifiers
  have hname : Unbroken (qualified p.explicitInterface p.name) :=
    unbroken_qualified (by simp_all [texts]) (by simp_all [texts])
  unfold text
  cases hbody : p.body <;> simp_all [texts, PropertyBody.texts, Unbroken]

theorem Indexer.unbroken_text {i : Indexer} (h : ∀ s ∈ i.texts, Unbroken s) :
    Unbroken i.text := by
  have hkeywords := unbroken_keywords i.accessibility i.modifiers
  have hname : Unbroken (qualified i.explicitInterface "this") :=
    unbroken_qualified (by simp_all [texts]) (by simp [Unbroken])
  have hparameters : Unbroken (joinParameters i.parameters) :=
    unbroken_joinParameters fun s hs => h s (by simp_all [texts])
  simp_all [text, texts, Unbroken]

theorem Field.unbroken_text {f : Field} (h : ∀ s ∈ f.texts, Unbroken s) : Unbroken f.text := by
  have hkeywords := unbroken_keywords f.accessibility f.modifiers
  unfold text
  cases hinitializer : f.initializer <;> simp_all [texts, Unbroken]

theorem Method.unbroken_lines {m : Method} (h : ∀ s ∈ m.texts, Unbroken s) :
    ∀ l ∈ m.lines depth, Unbroken l.text := by
  have hparameters : ∀ s ∈ m.parameters.flatMap Parameter.texts, Unbroken s :=
    fun s hs => h s (by simp_all [texts])
  have hhead : Unbroken m.head := by
    have hkeywords := unbroken_keywords m.accessibility m.modifiers
    have hname : Unbroken (qualified m.explicitInterface m.name) :=
      unbroken_qualified (by simp_all [texts]) (by simp_all [texts])
    simp_all [head, texts, Unbroken]
  have hsignature : (∀ l ∈ (m.signature depth).1, Unbroken l.text) ∧
      Unbroken (m.signature depth).2 := by
    unfold signature
    split
    · have hlines : ∀ l ∈ parameterLines (depth + 1) m.parameters, Unbroken l.text :=
        unbroken_parameterLines hparameters
      exact ⟨List.forall_mem_cons.mpr ⟨by simp_all [Unbroken], hlines⟩, by simp [Unbroken]⟩
    · have hjoined := unbroken_joinParameters hparameters
      exact ⟨by simp, by simp_all [Unbroken]⟩
  unfold lines
  generalize m.signature depth = signature at hsignature
  obtain ⟨before, last⟩ := signature
  obtain ⟨hbefore, hlast⟩ := hsignature
  refine List.forall_mem_append.mpr ⟨hbefore, ?_⟩
  cases hbody : m.body with
  | declaration => simp_all [Unbroken]
  | expression text =>
    have htext : Unbroken text := h text (by simp [texts, MethodBody.texts, hbody])
    simp_all [Unbroken]
  | block body =>
    refine List.forall_mem_cons.mpr ⟨hlast, unbroken_block fun s hs => h s ?_⟩
    simp [texts, MethodBody.texts, hbody, hs]

theorem Constructor.unbroken_lines {c : Constructor} (h : ∀ s ∈ c.texts, Unbroken s) :
    ∀ l ∈ c.lines depth, Unbroken l.text := by
  have hhead : Unbroken c.head := by
    have hkeywords := unbroken_keywords c.accessibility ∅
    simp_all [head, texts]
  have hchain : Unbroken c.chain := by
    unfold chain
    cases harguments : c.baseArguments with
    | none => simp [Unbroken]
    | some arguments =>
      have hjoined : Unbroken (", ".intercalate arguments) :=
        unbroken_intercalate (by simp [Unbroken]) fun s hs => h s (by simp_all [texts])
      simp_all [Unbroken]
  have hsignature : ∀ l ∈ c.signature depth, Unbroken l.text := by
    unfold signature
    split
    · simp_all [Unbroken]
    · have hparameters : ∀ l ∈ parameterLines (depth + 1) c.parameters, Unbroken l.text :=
        unbroken_parameterLines fun s hs => h s (by simp_all [texts])
      refine List.forall_mem_append.mpr ⟨List.forall_mem_cons.mpr ⟨?_, hparameters⟩, ?_⟩
      · simp_all [Unbroken]
      · simp_all [Unbroken]
  exact List.forall_mem_append.mpr
    ⟨hsignature, unbroken_block fun s hs => h s (by simp_all [texts])⟩

theorem Leaf.unbroken_lines {l : Leaf} (h : ∀ s ∈ l.texts, Unbroken s) :
    ∀ line ∈ l.lines depth, Unbroken line.text := by
  cases l with
  | comment text => simp_all [lines, texts, Unbroken]
  | property p => simpa [lines] using p.unbroken_text h
  | method m => exact m.unbroken_lines h
  | indexer i => simpa [lines] using i.unbroken_text h
  | field f => simpa [lines] using f.unbroken_text h
  | constructor c => exact c.unbroken_lines h

end Decl

theorem unbroken_header {d : TypeDecl} (hcomments : ∀ s ∈ d.leadingComments, Unbroken s)
    (hname : Unbroken d.name) (hbases : ∀ s ∈ d.bases, Unbroken s)
    (hconstraints : ∀ s ∈ d.constraints, Unbroken s) :
    ∀ l ∈ d.header depth, Unbroken l.text := by
  have hhead : Unbroken d.head := by
    have hkeywords := Decl.unbroken_keywords d.accessibility d.modifiers
    have hkind : Unbroken d.kind.keyword := by
      cases d.kind <;> simp [TypeKind.keyword, Unbroken]
    simp_all [TypeDecl.head, Unbroken]
  have hseparated := Decl.unbroken_separated hbases
  unfold TypeDecl.header
  split <;> simp_all [Unbroken, or_imp, forall_and]

mutual

theorem TypeDecl.unbroken_lines (depth : Nat) : (d : TypeDecl) → (∀ s ∈ d.texts, Unbroken s) →
    ∀ l ∈ d.lines depth, Unbroken l.text
  | ⟨comments, access, modifiers, kind, name, bases, constraints, ms⟩, h => by
    simp only [TypeDecl.texts, List.forall_mem_append, List.forall_mem_cons] at h
    obtain ⟨⟨⟨hcomments, hname, hbases⟩, hconstraints⟩, hms⟩ := h
    have hbraces : Unbroken "\x7b" ∧ Unbroken "\x7d" := by simp [Unbroken]
    refine List.forall_mem_append.mpr
      ⟨List.forall_mem_append.mpr ⟨?_, ?_⟩, by simpa using hbraces.2⟩
    · exact unbroken_header hcomments hname hbases hconstraints
    · exact List.forall_mem_cons.mpr ⟨hbraces.1, unbroken_memberLines (depth + 1) none ms hms⟩

theorem Member.unbroken_lines (depth : Nat) : (m : Member) → (∀ s ∈ m.texts, Unbroken s) →
    ∀ l ∈ m.lines depth, Unbroken l.text
  | .leaf l, h => l.unbroken_lines h
  | .type d, h => d.unbroken_lines depth h

theorem unbroken_memberLines (depth : Nat) (before : Option Bool) : (ms : List Member) →
    (∀ s ∈ memberTexts ms, Unbroken s) → ∀ l ∈ memberLines depth before ms, Unbroken l.text
  | [], _ => nofun
  | m :: ms, h => by
    obtain ⟨hm, hms⟩ := List.forall_mem_append.mp h
    refine List.forall_mem_append.mpr ⟨List.forall_mem_append.mpr ⟨?_, ?_⟩, ?_⟩
    · split <;> simp [Unbroken]
    · exact Member.unbroken_lines depth m hm
    · exact unbroken_memberLines depth (some m.standsApart) ms hms

end

end Unbroken

/-! ## Members -/

theorem memberLines_append (depth : Nat) (before : Option Bool) (ms ns : List Member) :
    memberLines depth before (ms ++ ns) = memberLines depth before ms
      ++ memberLines depth ((ms.getLast?.map Member.standsApart).or before) ns := by
  induction ms generalizing before with
  | nil => rfl
  | cons m ms ih =>
    have hlast : ((m :: ms).getLast?.map Member.standsApart).or before
        = (ms.getLast?.map Member.standsApart).or (some m.standsApart) := by
      rw [List.getLast?_cons]
      cases ms.getLast? <;> rfl
    rw [List.cons_append, memberLines, ih, memberLines, hlast]
    simp only [List.append_assoc]

namespace TypeDecl

/-- The text up to the end of the first members. -/
def renderUntil (d : TypeDecl) (width : Nat) (ms : List Member) : String :=
  Line.renderAll width (d.header 0 ++ ⟨0, "\x7b"⟩ :: memberLines 1 none ms)

/-- The text after a nested type, from the members that follow it. -/
def renderAfter (width : Nat) (ns : List Member) : String :=
  Line.renderAll width (memberLines 1 (some true) ns ++ [⟨0, "\x7d"⟩])

theorem render_members (d : TypeDecl) (width : Nat) (ms : List Member) :
    ({ d with members := ms } : TypeDecl).render width = d.renderUntil width ms ++ "\x7d\n" := by
  have hlast : Line.renderAll width [⟨0, "\x7d"⟩] = "\x7d\n" := by
    simp [Line.renderAll, Line.render, blanks]
  rw [render_eq, lines, Line.renderAll_append, hlast]
  rfl

/-- The lines that a nested type has inside of another are its own, one unit deeper. -/
theorem render_nested (d : TypeDecl) (width : Nat) (ms ns : List Member) {t : TypeDecl}
    (h : ∀ s ∈ t.texts, Text.Unbroken s) :
    ({ d with members := ms ++ .type t :: ns } : TypeDecl).render width
      = d.renderUntil width ms ++ (if ms.isEmpty then "" else "\n")
        ++ Text.setIn width (t.render width) ++ renderAfter width ns := by
  have hshift := Line.setIn_renderAll width 1 (t.unbroken_lines 0 h)
  rw [Nat.one_mul, map_deeper_lines, ← render_eq] at hshift
  have hgap : Line.renderAll width (if (Member.type t).isSpaced
      ((ms.getLast?.map Member.standsApart).or none) then [⟨1, ""⟩] else [])
      = if ms.isEmpty then "" else "\n" := by
    rcases List.eq_nil_or_concat ms with rfl | ⟨init, last, rfl⟩
    · simp [Member.isSpaced, Line.renderAll]
    · simp [Member.isSpaced, Member.standsApart, Line.renderAll, Line.render]
  rw [hshift, ← hgap, renderUntil, renderAfter, render_eq, lines, memberLines_append, memberLines]
  simp only [← Line.renderAll_append, List.append_assoc, List.cons_append]
  rfl

end TypeDecl

/-- What an emitter writes of an unbroken declaration is the text of the declaration set in to the
depth of the emitter, which it comes back to. So a nested type stands in its parent as its own
text, set in by one unit, and other widths change the blanks at the starts of the lines only. -/
theorem Emitter.type_setIn (d : TypeDecl) (h : ∀ s ∈ d.texts, Text.Unbroken s) (e : Emitter) :
    (e.type d).written = e.written ++ Text.setIn (e.depth * e.width) (d.render e.width) ∧
    (e.type d).depth = e.depth ∧
    (∀ (parent : TypeDecl) (ms ns : List Member), ∃ front back,
      ({ parent with members := ms } : TypeDecl).render e.width = front ++ "\x7d\n" ∧
      ({ parent with members := ms ++ .type d :: ns } : TypeDecl).render e.width
        = front ++ (if ms.isEmpty then "" else "\n") ++ Text.setIn e.width (d.render e.width)
          ++ back) ∧
    ∀ width, (Text.lines (d.render width)).map Text.dropIndentation
      = (Text.lines (d.render e.width)).map Text.dropIndentation := by
  have hlines := d.unbroken_lines 0 h
  refine ⟨?_, ?_, fun parent ms ns => ?_, fun width => ?_⟩
  · rw [type_eq, TypeDecl.render_eq, Line.setIn_renderAll _ _ hlines, d.map_deeper_lines,
      Nat.zero_add]
    rfl
  · rw [type_eq, depth_write]
  · exact ⟨_, _, parent.render_members e.width ms, parent.render_nested e.width ms ns h⟩
  · have hdropped (width : Nat) : (Text.lines (d.render width)).map Text.dropIndentation
        = (d.lines 0).map (fun l => Text.dropIndentation l.text.toList) ++ [[]] := by
      rw [TypeDecl.render_eq, Line.lines_renderAll width hlines, List.map_append, List.map_map]
      exact congrArg (· ++ [[]]) (List.map_congr_left fun l _ => l.dropIndentation_render width)
    rw [hdropped, hdropped]

/-- A class with a constructor that has its parameters on lines of their own. -/
def nestedClass : TypeDecl where
  kind := .classType
  name := "Link"
  bases := ["BackLink", "ILink"]
  members :=
    [.leaf (.field { typeName := "int", name := "_id" }),
      .leaf (.constructor
        { name := "Link"
          parameters := [.of "int" "id", .of "string" "name"]
          baseArguments := some ["name"]
          body := ["_id = id;"] })]

theorem Emitter.type_setIn_nestedClass :
    (∀ s ∈ nestedClass.texts, Text.Unbroken s) ∧
    ((⟨2, 3, "\x7b\n"⟩ : Emitter).type nestedClass).written
      = "\x7b\n" ++ Text.setIn 6 (nestedClass.render 2) ∧
    ((⟨2, 3, "\x7b\n"⟩ : Emitter).type nestedClass).depth = 3 ∧
    (Text.lines (nestedClass.render 4)).map Text.dropIndentation
      = (Text.lines (nestedClass.render 2)).map Text.dropIndentation := by
  have htexts : ∀ s ∈ nestedClass.texts, Text.Unbroken s := by
    unfold Text.Unbroken
    decide +kernel
  obtain ⟨hwritten, hdepth, -, hwidths⟩ :=
    type_setIn nestedClass htexts ⟨2, 3, "\x7b\n"⟩
  exact ⟨htexts, hwritten, hdepth, hwidths 4⟩

end ActorLinks
