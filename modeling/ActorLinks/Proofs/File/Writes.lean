import ActorLinks.Proofs.Failure
import ActorLinks.Proofs.File.Disk
import Mathlib.Data.List.Nodup

/-! # What a row of writes leaves behind

Where a path name leads can be told from its text alone, provided that it leads anywhere. A write
changes what is found at its own destination and at no other, so that after a row of writes each
file has the text that was written to it last. Every text is kept just if the destinations differ.
-/
namespace ActorLinks

namespace Pathname

/-- One part further, whatever is there. -/
def towards (position : List String) (part : String) : List String :=
  if part = "" || part = "." then position
  else if part = ".." then position.dropLast
  else position ++ [part]

/-- Where a path name leads from a position. -/
def walk (position : List String) (path : String) : List String :=
  (parts path).foldl towards position

/-- A part that is the name of a file or of a directory. -/
def IsPlain (name : String) : Prop := '/' ∉ name.toList ∧ name ≠ "" ∧ name ≠ "." ∧ name ≠ ".."

theorem towards_of_isPlain {name : String} (h : IsPlain name) (position : List String) :
    towards position name = position ++ [name] := by
  obtain ⟨_, hempty, hpoint, hpoints⟩ := h
  simp [towards, hempty, hpoint, hpoints]

theorem parts_ne_nil (path : String) : parts path ≠ [] := by
  rw [parts, ne_eq, List.map_eq_nil_iff]
  exact List.splitOnP_ne_nil _ _

theorem parts_of_notMem {name : String} (h : '/' ∉ name.toList) : parts name = [name] := by
  have hnone : ∀ c ∈ name.toList, decide (c = '/') = false := fun c hc =>
    decide_eq_false fun hslash => h (hslash ▸ hc)
  rw [parts, List.splitOnP_eq_singleton hnone, List.map_singleton, String.ofList_toList]

theorem parts_append_slash (directory name : String) :
    parts (directory ++ "/" ++ name) = parts directory ++ parts name := by
  have hslash : "/".toList = ['/'] := rfl
  rw [parts, String.toList_append, String.toList_append, hslash, List.append_assoc,
    List.singleton_append, List.splitOnP_append_cons _ _ (by simp), List.map_append]
  rfl

@[simp] theorem walk_empty (position : List String) : walk position "" = position := rfl

theorem walk_append_slash (position : List String) (directory name : String) :
    walk position (directory ++ "/" ++ name) = walk (walk position directory) name := by
  rw [walk, parts_append_slash, List.foldl_append]
  rfl

/-- A slash at the end leads no further. -/
theorem walk_slash (position : List String) (directory : String) :
    walk position (directory ++ "/") = walk position directory := by
  have hnothing := walk_append_slash position directory ""
  rwa [String.append_empty, walk_empty] at hnothing

theorem exists_append_slash {path : String} (h : path.toList.getLast? = some '/') :
    ∃ directory, path = directory ++ "/" := by
  obtain ⟨cs, hcs⟩ := List.getLast?_eq_some_iff.mp h
  refine ⟨String.ofList cs, String.toList_injective ?_⟩
  rw [hcs, String.toList_append, String.toList_ofList]
  rfl

theorem walk_of_isPlain {name : String} (h : IsPlain name) (position : List String) :
    walk position name = position ++ [name] := by
  rw [walk, parts_of_notMem h.1]
  exact towards_of_isPlain h position

theorem isAbsolute_append {directory : String} (h : directory ≠ "") (name : String) :
    isAbsolute (directory ++ name) = isAbsolute directory := by
  rw [isAbsolute, isAbsolute, String.toList_append]
  cases hchars : directory.toList with
  | nil => exact absurd (String.toList_eq_nil_iff.mp hchars) h
  | cons c cs => rfl

theorem isAbsolute_of_isPlain {name : String} (h : IsPlain name) : isAbsolute name = false := by
  rw [isAbsolute, beq_eq_false_iff_ne]
  exact fun hslash => h.1 (List.mem_of_mem_head? hslash)

/-- A plain name comes to stand behind a slash, which may be there already. -/
theorem exists_join_eq {path name : String} (hpath : path ≠ "") (h : IsPlain name) :
    ∃ directory rest, (path = directory ∨ path = directory ++ "/") ∧
      join path name = path ++ rest ∧ join path name = directory ++ "/" ++ name := by
  rw [join, isAbsolute_of_isPlain h, Bool.false_or, if_neg (mt String.isEmpty_iff.mp hpath)]
  split
  · next hslash =>
    obtain ⟨directory, rfl⟩ := exists_append_slash (by simpa using hslash)
    exact ⟨directory, name, .inr rfl, rfl, rfl⟩
  · exact ⟨path, "/" ++ name, .inl rfl, String.append_assoc, rfl⟩

end Pathname

namespace FileTree
variable {t new : FileTree} {around p : List String} {name : String}

theorem at?_cons_of_file (h : t.isDirectory = false) (name : String) (p : List String) :
    t.at? (name :: p) = none := by
  rw [at?_cons, entries_of_file h]
  rfl

/-- What leads to a directory is one. -/
theorem exists_eq_directory {es : List (String × FileTree)}
    (h : t.at? p = some (.directory es)) : ∃ es', t = .directory es' := by
  cases t with
  | directory es' => exact ⟨es', rfl⟩
  | file content =>
    cases p with
    | nil => cases h
    | cons name p =>
      rw [at?_cons_of_file rfl] at h
      cases h

theorem exists_directory_around {s : FileTree} (h : t.at? (around ++ [name]) = some s) :
    ∃ es, t.at? around = some (.directory es) := by
  rw [at?, List.foldlM_append] at h
  obtain ⟨child, hchild, hlast⟩ := Option.bind_eq_some_iff.mp h
  cases child with
  | directory es => exact ⟨es, hchild⟩
  | file content => cases hlast

/-- Setting a file in a directory leaves everything else that is no directory as it was. -/
theorem at?_put_of_ne {es : List (String × FileTree)} (hnew : new.isDirectory = false)
    (hq : ∀ s, t.at? (around ++ [name]) = some s → s.isDirectory = false)
    (haround : t.at? around = some (.directory es))
    (hp : ∀ s, t.at? p = some s → s.isDirectory = false) (hne : p ≠ around ++ [name]) :
    (t.put (around ++ [name]) new).at? p = t.at? p := by
  induction around generalizing t p with
  | nil =>
    obtain ⟨es, rfl⟩ := exists_eq_directory haround
    cases p with
    | nil => cases hp _ rfl
    | cons other p =>
      rw [List.nil_append, put, put, at?_cons, at?_cons, entries, lookup_putEntry, entries]
      split
      · next hname =>
        -- the path goes on below the file, where nothing is before and after
        subst hname
        cases p with
        | nil => exact absurd rfl hne
        | cons below p =>
          rw [Option.bind_some, at?_cons_of_file hnew]
          cases hold : es.lookup other with
          | none => rfl
          | some old =>
            have hfile : old.isDirectory = false := hq old (by
              rw [List.nil_append, at?_cons, entries, hold]
              rfl)
            rw [Option.bind_some, at?_cons_of_file hfile]
      · rfl
  | cons head around ih =>
    obtain ⟨es', rfl⟩ := exists_eq_directory haround
    rw [at?_cons] at haround
    obtain ⟨child, hchild, hbelow⟩ := Option.bind_eq_some_iff.mp haround
    cases p with
    | nil => cases hp _ rfl
    | cons other p =>
      rw [List.cons_append, put, at?_cons, at?_cons, entries, lookup_putEntry]
      split
      · next hname =>
        subst hname
        -- both paths enter one child, and the hypotheses about it are those about the tree
        have hdown : ∀ q, (directory es').at? (other :: q) = child.at? q := fun q => by
          rw [at?_cons, hchild, Option.bind_some]
        rw [hchild, Option.getD_some, Option.bind_some, Option.bind_some]
        exact ih (fun s hs => hq s ((hdown _).trans hs)) hbelow
          (fun s hs => hp s ((hdown p).trans hs)) fun h => hne (by rw [h, List.cons_append])
      · rfl

end FileTree

namespace Disk
variable {d d' : Disk} {path text : String} {p q : List String}

/-- Where a path name leads as far as its text tells. -/
def destination (d : Disk) (path : String) : List String := Pathname.walk (d.start path) path

theorem destination_eq (h : d.current = d'.current) (path : String) :
    d.destination path = d'.destination path := by
  rw [destination, destination, start, start, h]

/-- A step leaves a directory, and leads where the text of the part says. -/
theorem step_eq_ok {part : String} (h : d.step p part = .ok q) :
    (∃ es, d.root.at? p = some (.directory es)) ∧ q = Pathname.towards p part := by
  rw [step] at h
  cases hs : d.root.at? p with
  | none => simp [hs] at h
  | some s =>
    cases s with
    | file content => simp [hs] at h
    | directory es =>
      simp only [hs] at h
      refine ⟨⟨es, rfl⟩, ?_⟩
      rw [Pathname.towards]
      split_ifs at h ⊢ <;> exact (Except.ok.inj h).symm

theorem foldl_of_foldlM_step {parts : List String} (h : parts.foldlM d.step p = .ok q) :
    q = parts.foldl Pathname.towards p := by
  induction parts generalizing p with
  | nil => exact (Except.ok.inj h).symm
  | cons part parts ih =>
    rw [List.foldlM_cons] at h
    obtain ⟨next, hstep, h⟩ := Failure.bind_eq_ok_iff.mp h
    rw [List.foldl_cons, ← (step_eq_ok hstep).2]
    exact ih h

/-- Where a path name leads, its parts can be followed. -/
theorem foldlM_of_position? (h : d.position? path = .ok q) :
    (Pathname.parts path).foldlM d.step (d.start path) = .ok q := by
  rw [position?, follow] at h
  split at h
  · cases h
  · split at h
    · cases h
    · split at h
      · cases h
      · exact h

theorem eq_destination (h : d.position? path = .ok q) : q = d.destination path :=
  foldl_of_foldlM_step (foldlM_of_position? h)

/-- What is no directory lies in one. -/
theorem exists_around_of_step {part : String} (h : d.step p part = .ok q)
    (hq : ∀ s, d.root.at? q = some s → s.isDirectory = false) :
    ∃ around name es, q = around ++ [name] ∧ d.root.at? around = some (.directory es) := by
  obtain ⟨⟨es, hes⟩, rfl⟩ := step_eq_ok h
  rw [Pathname.towards] at hq ⊢
  split_ifs at hq ⊢
  · cases hq _ hes
  · obtain rfl | ⟨around, name, rfl⟩ := List.eq_nil_or_concat' p
    · cases hq _ hes
    · rw [List.dropLast_concat] at hq
      obtain ⟨es', hes'⟩ := FileTree.exists_directory_around hes
      cases hq _ hes'
  · exact ⟨p, part, es, rfl, hes⟩

theorem exists_around (h : d.position? path = .ok q)
    (hq : ∀ s, d.root.at? q = some s → s.isDirectory = false) :
    ∃ around name es, q = around ++ [name] ∧ d.root.at? around = some (.directory es) := by
  have hfollow := foldlM_of_position? h
  obtain ⟨parts, part, hparts⟩ :=
    (List.eq_nil_or_concat' (Pathname.parts path)).resolve_left (Pathname.parts_ne_nil path)
  rw [hparts, List.foldlM_append] at hfollow
  obtain ⟨next, _, hlast⟩ := Failure.bind_eq_ok_iff.mp hfollow
  rw [List.foldlM_cons] at hlast
  obtain ⟨last, hstep, hdone⟩ := Failure.bind_eq_ok_iff.mp hlast
  cases hdone
  exact exists_around_of_step hstep hq

/-- A write sets the file at its destination and leaves alone whatever else is no directory. -/
theorem write_eq_ok (h : d.write path text = .ok d') :
    d.position? path = .ok (d.destination path) ∧
    d' = d.put (d.destination path) (.ofText text) ∧
    (∀ s, d.root.at? (d.destination path) = some s → s.isDirectory = false) := by
  obtain ⟨q, hq, hfile⟩ := IsWritable.exists_position ⟨text, d', h⟩
  obtain rfl := eq_destination hq
  exact ⟨hq, Except.ok.inj (h.symm.trans (write_of_position hq hfile text)), hfile⟩

section Write
variable (h : d.write path text = .ok d')
include h

theorem destination_write (other : String) : d'.destination other = d.destination other := by
  obtain ⟨_, rfl, _⟩ := write_eq_ok h
  rfl

theorem position?_write {other : String} (hq : d.position? other = .ok q) :
    d'.position? other = .ok q := by
  obtain ⟨_, rfl, hfile⟩ := write_eq_ok h
  exact position?_put hfile hq

theorem at?_write : d'.root.at? (d.destination path) = some (.ofText text) := by
  obtain ⟨_, rfl, _⟩ := write_eq_ok h
  exact FileTree.at?_put_self d.root _ _

theorem at?_write_of_ne (hp : ∀ s, d.root.at? p = some s → s.isDirectory = false)
    (hne : p ≠ d.destination path) : d'.root.at? p = d.root.at? p := by
  obtain ⟨hposition, rfl, hfile⟩ := write_eq_ok h
  obtain ⟨around, name, es, heq, haround⟩ := exists_around hposition hfile
  rw [heq] at hfile hne ⊢
  exact FileTree.at?_put_of_ne rfl hfile haround hp hne

/-- No write makes another one impossible. -/
theorem IsWritable.after_write {other : String} (hother : d.IsWritable other) :
    d'.IsWritable other := by
  obtain ⟨q, hq, hfile⟩ := hother.exists_position
  have hkept : ∀ s, d'.root.at? q = some s → s.isDirectory = false := by
    intro s hs
    by_cases hsame : q = d.destination path
    · rw [hsame, at?_write h] at hs
      cases hs
      rfl
    · exact hfile s (at?_write_of_ne h hfile hsame ▸ hs)
  exact ⟨text, _, write_of_position (position?_write h hq) hkept text⟩

end Write

/-- Writes texts to path names, one after the other. -/
def writeAll (d : Disk) (items : List (String × String)) : Except PathFault Disk :=
  items.foldlM (fun d e => d.write e.1 e.2) d

section WriteAll
variable {items before later : List (String × String)} {e : String × String}

theorem writeAll_cons_iff : d.writeAll (e :: items) = .ok d' ↔
    ∃ next, d.write e.1 e.2 = .ok next ∧ next.writeAll items = .ok d' := by
  rw [writeAll, List.foldlM_cons]
  exact Failure.bind_eq_ok_iff

theorem writeAll_append_iff : d.writeAll (before ++ later) = .ok d' ↔
    ∃ next, d.writeAll before = .ok next ∧ next.writeAll later = .ok d' := by
  rw [writeAll, List.foldlM_append]
  exact Failure.bind_eq_ok_iff

section
variable (h : d.writeAll items = .ok d')
include h

theorem destination_writeAll (other : String) : d'.destination other = d.destination other := by
  induction items generalizing d with
  | nil => cases h; rfl
  | cons e items ih =>
    obtain ⟨next, hwrite, hrest⟩ := writeAll_cons_iff.mp h
    rw [ih hrest, destination_write hwrite]

theorem position?_writeAll {other : String} (hq : d.position? other = .ok q) :
    d'.position? other = .ok q := by
  induction items generalizing d with
  | nil => cases h; exact hq
  | cons e items ih =>
    obtain ⟨next, hwrite, hrest⟩ := writeAll_cons_iff.mp h
    exact ih hrest (position?_write hwrite hq)

theorem at?_writeAll_of_notMem (hp : ∀ s, d.root.at? p = some s → s.isDirectory = false)
    (hnot : p ∉ items.map fun e => d.destination e.1) : d'.root.at? p = d.root.at? p := by
  induction items generalizing d with
  | nil => cases h; rfl
  | cons e items ih =>
    obtain ⟨next, hwrite, hrest⟩ := writeAll_cons_iff.mp h
    rw [List.map_cons, List.mem_cons, not_or] at hnot
    have hsame := at?_write_of_ne hwrite hp hnot.1
    rw [← hsame]
    refine ih hrest (hsame ▸ hp) ?_
    simp only [destination_write hwrite]
    exact hnot.2

theorem tree?_writeAll_of_notMem {other : String} (hq : d.position? other = .ok q)
    (hfile : ∀ s, d.root.at? q = some s → s.isDirectory = false)
    (hnot : q ∉ items.map fun e => d.destination e.1) : d'.tree? other = d.tree? other := by
  rw [tree?, tree?, hq, position?_writeAll h hq]
  simp only [bind, Except.bind, at?_writeAll_of_notMem h hfile hnot]

theorem IsWritable.after_writeAll {other : String} (hother : d.IsWritable other) :
    d'.IsWritable other := by
  induction items generalizing d with
  | nil => cases h; exact hother
  | cons e items ih =>
    obtain ⟨next, hwrite, hrest⟩ := writeAll_cons_iff.mp h
    exact ih hrest (hother.after_write hwrite)

end

theorem position?_of_mem_writeAll (h : d.writeAll items = .ok d') (he : e ∈ items) :
    d'.position? e.1 = .ok (d.destination e.1) := by
  obtain ⟨before, later, rfl⟩ := List.append_of_mem he
  obtain ⟨next, hbefore, hlater⟩ := writeAll_append_iff.mp h
  obtain ⟨written, hwrite, hrest⟩ := writeAll_cons_iff.mp hlater
  rw [← destination_writeAll hbefore]
  exact position?_writeAll hrest (position?_write hwrite (write_eq_ok hwrite).1)

/-- What is written last stays. -/
theorem at?_writeAll_last (h : d.writeAll (before ++ e :: later) = .ok d')
    (hlast : d.destination e.1 ∉ later.map fun e => d.destination e.1) :
    d'.root.at? (d.destination e.1) = some (.ofText e.2) := by
  obtain ⟨next, hbefore, hlater⟩ := writeAll_append_iff.mp h
  obtain ⟨written, hwrite, hrest⟩ := writeAll_cons_iff.mp hlater
  simp only [← destination_writeAll hbefore, ← destination_write hwrite] at hlast
  rw [← destination_writeAll hbefore, ← at?_write hwrite, ← destination_write hwrite]
  refine at?_writeAll_of_notMem hrest (fun s hs => ?_) hlast
  rw [destination_write hwrite, at?_write hwrite] at hs
  cases hs
  rfl

theorem text?_writeAll_last (h : d.writeAll (before ++ e :: later) = .ok d')
    (hlast : d.destination e.1 ∉ later.map fun e => d.destination e.1) {e' : String × String}
    (he' : e' ∈ before ++ e :: later) (hsame : d.destination e'.1 = d.destination e.1) :
    d'.text? e'.1 = .ok e.2 := by
  have hfound := at?_writeAll_last h hlast
  rw [text?, tree?, position?_of_mem_writeAll h he', hsame]
  simp only [bind, Except.bind, hfound]
  exact FileTree.text?_ofText e.2

/-- Every text is in the file that it was written to, and no two were written to one file. -/
structure HoldsApart (d : Disk) (items : List (String × String)) : Prop where
  text?_eq : ∀ e ∈ items, d.text? e.1 = .ok e.2
  nodup : (items.map fun e => d.position? e.1).Nodup

theorem holdsApart_iff (h : d.writeAll items = .ok d') :
    d'.HoldsApart items ↔ (items.map fun e => d.destination e.1).Nodup := by
  have hpositions : (items.map fun e => d'.position? e.1)
      = (items.map fun e => d.destination e.1).map .ok := by
    rw [List.map_map]
    exact List.map_congr_left fun e he => position?_of_mem_writeAll h he
  have hnodup : (items.map fun e => d'.position? e.1).Nodup
      ↔ (items.map fun e => d.destination e.1).Nodup := by
    rw [hpositions, List.nodup_map_iff fun _ _ => Except.ok.inj]
  refine ⟨fun hheld => hnodup.mp hheld.nodup, fun hapart => ⟨fun e he => ?_, hnodup.mpr hapart⟩⟩
  obtain ⟨before, later, rfl⟩ := List.append_of_mem he
  rw [List.map_append, List.map_cons, List.nodup_append, List.nodup_cons] at hapart
  exact text?_writeAll_last h hapart.2.1.1 he rfl

end WriteAll

section MakeDirectories

theorem current_makeDirectory (h : d.makeDirectory path = .ok d') : d'.current = d.current := by
  rw [makeDirectory] at h
  split at h
  · cases h
  · obtain ⟨p, _, h⟩ := Failure.bind_eq_ok_iff.mp h
    obtain ⟨q, _, h⟩ := Failure.bind_eq_ok_iff.mp h
    split at h
    · cases h
    · cases h
      rfl

theorem current_orDirectory {made : Except PathFault Disk}
    (hmade : ∀ next, made = .ok next → next.current = d.current)
    (h : d.orDirectory path made = .ok d') : d'.current = d.current := by
  unfold orDirectory at h
  split at h
  · next next =>
    cases h
    exact hmade _ rfl
  · split at h
    · cases h
      rfl
    · cases h

theorem current_makeInside {paths : List String} (h : d.makeInside paths = .ok d') :
    d'.current = d.current := by
  induction paths generalizing d d' with
  | nil =>
    cases h
    rfl
  | cons path around ih =>
    rw [makeInside] at h
    split at h
    · obtain ⟨next, haround, h⟩ := Failure.bind_eq_ok_iff.mp h
      rw [← ih haround]
      exact current_orDirectory (fun _ => current_makeDirectory) h
    · exact current_orDirectory (fun _ => current_makeDirectory) h

/-- Making directories is no change of the current one. -/
theorem current_makeDirectories (h : d.makeDirectories path = .ok d') :
    d'.current = d.current := by
  rw [makeDirectories] at h
  split at h
  · cases h
    rfl
  · exact current_makeInside h

end MakeDirectories

section Join

/-- The file of a plain name lies where its directory's path name leads. -/
theorem destination_join {name : String} (hname : Pathname.IsPlain name) (directory : String) :
    d.destination (Pathname.join directory name) = d.destination directory ++ [name] := by
  by_cases hne : directory = ""
  · have hjoin : Pathname.join directory name = name := by simp [Pathname.join, hne]
    rw [hjoin, hne, destination, destination, start, Pathname.isAbsolute_of_isPlain hname,
      Pathname.walk_of_isPlain hname]
    rfl
  · obtain ⟨around, rest, haround, hrest, hjoin⟩ := Pathname.exists_join_eq hne hname
    have hstart : d.start (Pathname.join directory name) = d.start directory := by
      rw [hrest, start, start, Pathname.isAbsolute_append hne]
    have hwalk (p : List String) : Pathname.walk p around = Pathname.walk p directory := by
      rcases haround with rfl | rfl
      · rfl
      · exact (Pathname.walk_slash p around).symm
    rw [destination, destination, hstart, hjoin, Pathname.walk_append_slash,
      Pathname.walk_of_isPlain hname, hwalk]

end Join

end Disk

end ActorLinks
