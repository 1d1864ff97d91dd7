import ActorLinks.File.Disk

/-! # What is written is found again

Setting a file leaves every directory a directory, so that a path name leads where it led before,
and finds there what was set.
-/
namespace ActorLinks

namespace FileTree
variable {t : FileTree} {p q : List String}

theorem at?_cons (name : String) (p : List String) (t : FileTree) :
    t.at? (name :: p) = (t.entries.lookup name).bind (at? p) := rfl

theorem entries_of_file (h : t.isDirectory = false) : t.entries = [] := by
  cases t with
  | file content => rfl
  | directory es => cases h

theorem at?_put_self (t : FileTree) (p : List String) (new : FileTree) :
    (t.put p new).at? p = some new := by
  induction p generalizing t with
  | nil => rfl
  | cons name p ih =>
    rw [put, at?_cons, entries, lookup_putEntry, if_pos rfl, Option.bind_some, ih]

/-- A directory stays one unless it is put away itself. -/
theorem isDirectory_at?_put (new : FileTree)
    (hq : ∀ s, t.at? q = some s → s.isDirectory = false) {s : FileTree}
    (hs : t.at? p = some s) (hdirectory : s.isDirectory = true) :
    ∃ s', (t.put q new).at? p = some s' ∧ s'.isDirectory = true := by
  induction q generalizing t p with
  | nil =>
    -- `t` is a file, which has nothing below it
    have hfile := hq t rfl
    cases p with
    | nil =>
      cases hs
      rw [hfile] at hdirectory
      cases hdirectory
    | cons name p =>
      rw [at?_cons, entries_of_file hfile] at hs
      cases hs
  | cons name q ih =>
    cases p with
    | nil => exact ⟨_, rfl, rfl⟩
    | cons other p =>
      rw [at?_cons] at hs
      rw [put, at?_cons, entries, lookup_putEntry]
      split
      · next hname =>
        subst hname
        obtain ⟨child, hchild, hs⟩ := Option.bind_eq_some_iff.mp hs
        rw [hchild, Option.getD_some, Option.bind_some]
        refine ih (fun s' hs' => hq s' ?_) hs
        rw [at?_cons, hchild, Option.bind_some, hs']
      · exact ⟨s, hs, hdirectory⟩

theorem text?_ofText (text : String) : (ofText text).text? = .ok text := by
  have hvalid : text.toUTF8.IsValidUTF8 := text.isValidUTF8
  have htext : String.fromUTF8? text.toUTF8 = some text := by
    unfold String.fromUTF8?
    rw [dif_pos hvalid]
    rfl
  rw [ofText, ofBytes, text?, htext]

end FileTree

namespace Disk
variable {d : Disk} {q : List String} {new : FileTree}

theorem step_put (hq : ∀ s, d.root.at? q = some s → s.isDirectory = false)
    {position position' : List String} {part : String}
    (h : d.step position part = .ok position') :
    (d.put q new).step position part = .ok position' := by
  rw [step] at h
  cases hs : d.root.at? position with
  | none => simp [hs] at h
  | some s =>
    cases s with
    | file content => simp [hs] at h
    | directory es =>
      obtain ⟨s', hs', hdirectory⟩ := FileTree.isDirectory_at?_put new hq hs rfl
      cases s' with
      | file content => cases hdirectory
      | directory es' =>
        rw [hs] at h
        rw [step, put, hs']
        exact h

theorem foldlM_step_put (hq : ∀ s, d.root.at? q = some s → s.isDirectory = false)
    {parts : List String} {position position' : List String}
    (h : parts.foldlM d.step position = .ok position') :
    parts.foldlM (d.put q new).step position = .ok position' := by
  induction parts generalizing position with
  | nil => exact h
  | cons part parts ih =>
    rw [List.foldlM_cons] at h ⊢
    cases hstep : d.step position part with
    | error fault =>
      rw [hstep] at h
      cases h
    | ok next =>
      rw [hstep] at h
      rw [step_put hq hstep]
      exact ih h

/-- A path name leads where it led before a file was set. -/
theorem position?_put (hq : ∀ s, d.root.at? q = some s → s.isDirectory = false) {path : String}
    {position : List String} (h : d.position? path = .ok position) :
    (d.put q new).position? path = .ok position := by
  rw [position?, follow] at h ⊢
  split at h
  · cases h
  next hempty =>
    split at h
    · cases h
    next hzero =>
      split at h
      · cases h
      next hlong =>
        rw [if_neg hempty, if_neg hzero, if_neg hlong]
        exact foldlM_step_put hq h

/-- A text can be written to such a path. -/
def IsWritable (d : Disk) (path : String) : Prop := ∃ text d', d.write path text = .ok d'

theorem IsWritable.exists_position {path : String} (h : d.IsWritable path) : ∃ position,
    d.position? path = .ok position ∧
      ∀ s, d.root.at? position = some s → s.isDirectory = false := by
  obtain ⟨text, d', hwrite⟩ := h
  rw [write] at hwrite
  cases hposition : d.position? path with
  | error fault =>
    rw [hposition] at hwrite
    cases hwrite
  | ok position =>
    refine ⟨position, rfl, fun s hs => ?_⟩
    rw [hposition] at hwrite
    cases s with
    | file content => rfl
    | directory es =>
      simp only [bind, Except.bind, hs] at hwrite
      cases hwrite

theorem write_of_position {path : String} {position : List String}
    (hposition : d.position? path = .ok position)
    (hfile : ∀ s, d.root.at? position = some s → s.isDirectory = false) (text : String) :
    d.write path text = .ok (d.put position (.ofText text)) := by
  rw [write, hposition]
  simp only [bind, Except.bind]
  split
  · next es hs => exact absurd (hfile _ hs) (by simp [FileTree.isDirectory])
  · rfl

/-- Every text can be written where one can, and is what is found there then. -/
theorem IsWritable.exists_write {path : String} (h : d.IsWritable path) (text : String) :
    ∃ d', d.write path text = .ok d' ∧ d'.tree? path = .ok (.ofText text) := by
  obtain ⟨position, hposition, hfile⟩ := h.exists_position
  refine ⟨_, write_of_position hposition hfile text, ?_⟩
  have hfound : (d.put position (.ofText text)).root.at? position = some (.ofText text) :=
    FileTree.at?_put_self d.root position _
  rw [tree?, position?_put hfile hposition]
  simp only [bind, Except.bind, hfound]
  rfl

end Disk

end ActorLinks
