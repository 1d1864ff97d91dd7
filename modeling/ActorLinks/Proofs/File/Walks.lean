import ActorLinks.Proofs.File.Writes
import ActorLinks.Proofs.Text.ByteOrder
import Mathlib.Data.List.Lex

/-! # Walks

A walk that does not fail meets each file of a tree once, in the order of the names that lead to
it, and every path name that it gives leads to its file, unless it is too long. Setting a file
anew changes nothing else that is met.
-/
namespace ActorLinks

namespace Pathname

/-- A name that an entry of a directory can have. -/
structure IsEntryName (name : String) : Prop where
  plain : IsPlain name
  nonzero : '\x00' ∉ name.toList
  short : name.utf8ByteSize ≤ Disk.nameLimit

theorem isEntryName_iff {name : String} : IsEntryName name ↔
    ('/' ∉ name.toList ∧ name ≠ "" ∧ name ≠ "." ∧ name ≠ "..") ∧ '\x00' ∉ name.toList ∧
      name.utf8ByteSize ≤ Disk.nameLimit :=
  ⟨fun h => ⟨h.plain, h.nonzero, h.short⟩, fun ⟨hplain, hzero, hshort⟩ => ⟨hplain, hzero, hshort⟩⟩

instance (name : String) : Decidable (IsEntryName name) := decidable_of_iff' _ isEntryName_iff

/-- The path name of what some names lead to, from a directory that has the path name. -/
def below (path : String) (names : List String) : String := names.foldl join path

/-- The operating system takes the path name in. -/
structure IsLegal (path : String) : Prop where
  nonempty : path ≠ ""
  nonzero : '\x00' ∉ path.toList

theorem IsLegal.join {path name : String} (hpath : IsLegal path) (h : IsEntryName name) :
    IsLegal (join path name) := by
  obtain ⟨hempty, hzero⟩ := hpath
  obtain ⟨directory, rest, hdirectory, hrest, hjoin⟩ := exists_join_eq hempty h.plain
  refine ⟨fun hnil => hempty ?_, ?_⟩
  · rw [hrest, String.append_eq_empty_iff] at hnil
    exact hnil.1
  · have haround : '\x00' ∉ directory.toList := by
      rcases hdirectory with rfl | rfl
      · exact hzero
      · exact fun hmem => hzero (by simp [hmem])
    rw [hjoin]
    simp [haround, h.nonzero]

theorem IsLegal.below {path : String} {names : List String} (hpath : IsLegal path)
    (h : ∀ n ∈ names, IsEntryName n) : IsLegal (below path names) := by
  induction names generalizing path with
  | nil => exact hpath
  | cons name names ih =>
    rw [List.forall_mem_cons] at h
    exact ih (hpath.join h.1) h.2

theorem utf8ByteSize_le_join (path name : String) (h : IsPlain name) :
    path.utf8ByteSize ≤ (join path name).utf8ByteSize := by
  rw [join, isAbsolute_of_isPlain h, Bool.false_or]
  split
  · next hempty =>
    rw [String.isEmpty_iff.mp hempty]
    exact Nat.zero_le _
  · split <;> simp only [String.utf8ByteSize_append] <;> omega

theorem isTooLong_of_below {path : String} {names : List String} (h : ∀ n ∈ names, IsPlain n)
    (hshort : isTooLong (below path names) = false) : isTooLong path = false := by
  induction names generalizing path with
  | nil => exact hshort
  | cons name names ih =>
    rw [List.forall_mem_cons] at h
    have hnext := ih h.2 hshort
    have hle := utf8ByteSize_le_join path name h.1
    simp only [isTooLong, decide_eq_false_iff_not, not_le] at hnext ⊢
    omega

end Pathname

namespace FileTree
variable {t new : FileTree} {path : String} {names : List String}
  {es : List (String × FileTree)}

/-- What holds of a directory if it holds of its entries holds of every tree. -/
theorem entries_induction {P : FileTree → Prop} (file : ∀ content, P (file content))
    (directory : ∀ es, (∀ e ∈ es, P e.2) → P (directory es)) (t : FileTree) : P t :=
  FileTree.rec (motive_1 := P) (motive_2 := fun es => ∀ e ∈ es, P e.2) (motive_3 := fun e => P e.2)
    file directory (fun _ he => nomatch he)
    (fun _ _ hhead htail => List.forall_mem_cons.mpr ⟨hhead, htail⟩) (fun _ _ h => h) t

/-- Every directory holds its entries in ascending order, by names that they can have. -/
structure Sound (t : FileTree) : Prop where
  ascending : ∀ p s, t.at? p = some s → (s.entries.map Prod.fst).Pairwise (· < ·)
  names : ∀ p s, t.at? p = some s → ∀ e ∈ s.entries, Pathname.IsEntryName e.1

/-- The walk does not fail. -/
def Walks (path : String) (t : FileTree) : Prop := ∀ met ∈ t.walk path, ∃ file, met = .ok file

theorem walkEntries_eq_flatMap (path : String) (es : List (String × FileTree)) :
    walkEntries path es = es.flatMap fun e => e.2.walk (Pathname.join path e.1) := by
  induction es with
  | nil => rfl
  | cons e es ih => rw [walkEntries, List.flatMap_cons, ih]

theorem entryFiles_eq_flatMap (path : String) (es : List (String × FileTree)) :
    entryFiles path es = es.flatMap fun e => e.2.files (Pathname.join path e.1) := by
  induction es with
  | nil => rfl
  | cons e es ih => rw [entryFiles, List.flatMap_cons, ih]

namespace Walks

theorem walk_eq (h : Walks path (directory es)) :
    (directory es).walk path = walkEntries path es := by
  rw [walk]
  split
  · next hlong =>
    obtain ⟨file, hfile⟩ := h (.error path) (by simp [walk, hlong])
    cases hfile
  · rfl

theorem entry (h : Walks path (directory es)) {e : String × FileTree} (he : e ∈ es) :
    Walks (Pathname.join path e.1) e.2 := by
  intro met hmet
  refine h met ?_
  rw [h.walk_eq, walkEntries_eq_flatMap]
  exact List.mem_flatMap.mpr ⟨e, he, hmet⟩

/-- A walk that does not fail meets the files. -/
theorem eq_files (h : t.Walks path) : t.walk path = (t.files path).map Except.ok := by
  induction t using entries_induction generalizing path with
  | file content => rw [walk, files, List.map_singleton]
  | directory es ih =>
    rw [h.walk_eq, walkEntries_eq_flatMap, files, entryFiles_eq_flatMap, List.map_flatMap]
    exact List.flatMap_congr fun e he => ih e he (h.entry he)

theorem of_eq_map {files : List (String × FileTree)} (h : t.walk path = files.map Except.ok) :
    t.Walks path := by
  intro met hmet
  rw [h] at hmet
  obtain ⟨file, _, rfl⟩ := List.mem_map.mp hmet
  exact ⟨file, rfl⟩

end Walks

theorem at?_append (p q : List String) (t : FileTree) :
    t.at? (p ++ q) = (t.at? p).bind (at? q) := List.foldlM_append

theorem lookup_eq_some_iff (h : (es.map Prod.fst).Pairwise (· < ·)) {name : String} :
    es.lookup name = some t ↔ (name, t) ∈ es :=
  (Dict.mem_entries_iff (d := ⟨es, h⟩)).symm

namespace Sound

theorem entries_ascending (h : (directory es).Sound) : (es.map Prod.fst).Pairwise (· < ·) :=
  h.ascending [] _ rfl

theorem at?_of_mem (h : (directory es).Sound) {e : String × FileTree} (he : e ∈ es)
    (p : List String) : (directory es).at? (e.1 :: p) = e.2.at? p := by
  have hlookup : es.lookup e.1 = some e.2 := (lookup_eq_some_iff h.entries_ascending).mpr he
  rw [at?_cons, entries, hlookup, Option.bind_some]

theorem child {name : String} {s : FileTree} (h : t.Sound)
    (hs : t.entries.lookup name = some s) : s.Sound where
  ascending p s' hs' := h.ascending (name :: p) s' (by rw [at?_cons, hs]; exact hs')
  names p s' hs' := h.names (name :: p) s' (by rw [at?_cons, hs]; exact hs')

theorem entry (h : (directory es).Sound) {e : String × FileTree} (he : e ∈ es) : e.2.Sound :=
  h.child ((lookup_eq_some_iff h.entries_ascending).mpr he)

theorem name_of_mem (h : (directory es).Sound) {e : String × FileTree} (he : e ∈ es) :
    Pathname.IsEntryName e.1 := h.names [] _ rfl e he

/-- Only entries' names lead anywhere. -/
theorem isEntryName (h : t.Sound) (hat : t.at? names = some new) :
    ∀ n ∈ names, Pathname.IsEntryName n := by
  induction names generalizing t with
  | nil => exact fun n hn => nomatch hn
  | cons name names ih =>
    cases t with
    | file content => cases hat
    | directory es =>
      obtain ⟨child, hchild, hrest⟩ := Option.bind_eq_some_iff.mp hat
      have hmem := (lookup_eq_some_iff h.entries_ascending).mp hchild
      exact List.forall_mem_cons.mpr ⟨h.name_of_mem hmem, ih (h.entry hmem) hrest⟩

theorem file (content : Except PathFault ByteArray) : (FileTree.file content).Sound where
  ascending p s hs := by
    cases p with
    | nil =>
      cases hs
      exact .nil
    | cons name p => cases hs
  names p s hs := by
    cases p with
    | nil =>
      cases hs
      exact fun e he => nomatch he
    | cons name p => cases hs

theorem directory (hascending : (es.map Prod.fst).Pairwise (· < ·))
    (hentries : ∀ e ∈ es, Pathname.IsEntryName e.1 ∧ e.2.Sound) :
    (FileTree.directory es).Sound := by
  have hbelow {name : String} {p : List String} {s : FileTree}
      (hs : (FileTree.directory es).at? (name :: p) = some s) :
      ∃ inner : FileTree, inner.Sound ∧ inner.at? p = some s := by
    obtain ⟨inner, hinner, hrest⟩ : ∃ inner, es.lookup name = some inner ∧
        inner.at? p = some s := Option.bind_eq_some_iff.mp hs
    exact ⟨inner, (hentries _ ((lookup_eq_some_iff hascending).mp hinner)).2, hrest⟩
  constructor
  · intro p s hs
    cases p with
    | nil =>
      cases hs
      exact hascending
    | cons name p =>
      obtain ⟨inner, hinner, hrest⟩ := hbelow hs
      exact hinner.ascending p s hrest
  · intro p s hs
    cases p with
    | nil =>
      cases hs
      exact fun e he => (hentries e he).1
    | cons name p =>
      obtain ⟨inner, hinner, hrest⟩ := hbelow hs
      exact hinner.names p s hrest

theorem empty : FileTree.empty.Sound := .directory .nil fun _ he => nomatch he

/-- Setting a position keeps a tree sound. -/
theorem put {p : List String} (h : t.Sound) (hnew : new.Sound)
    (hp : ∀ n ∈ p, Pathname.IsEntryName n) : (t.put p new).Sound := by
  induction p generalizing t with
  | nil => exact hnew
  | cons name p ih =>
    rw [List.forall_mem_cons] at hp
    have hascending : (t.entries.map Prod.fst).Pairwise (· < ·) := h.ascending [] t rfl
    have hchild : ((t.entries.lookup name).getD FileTree.empty).Sound := by
      cases hlookup : t.entries.lookup name with
      | none => exact empty
      | some inner => exact h.child hlookup
    have hput : ((putEntry name (((t.entries.lookup name).getD FileTree.empty).put p new)
        t.entries).map Prod.fst).Pairwise (· < ·) := by
      rw [putEntry_keys]
      exact insertAscending_pairwise hascending
    refine .directory hput fun e he => ?_
    have hlookup := (lookup_eq_some_iff hput).mpr he
    rw [lookup_putEntry] at hlookup
    split at hlookup
    · next hname => exact ⟨hname ▸ hp.1, Option.some.inj hlookup ▸ ih hchild hp.2⟩
    · have hmem := (lookup_eq_some_iff hascending).mp hlookup
      exact ⟨h.names [] t rfl _ hmem, h.child hlookup⟩

end Sound

/-- What is met are the files. -/
theorem mem_walk (hsound : t.Sound) (hwalk : t.Walks path) {q : String} {f : FileTree} :
    .ok (q, f) ∈ t.walk path ↔ ∃ names content,
      q = Pathname.below path names ∧ t.at? names = some f ∧ f = .file content := by
  induction t using entries_induction generalizing path with
  | file content =>
    rw [walk, List.mem_singleton, Except.ok.injEq, Prod.mk.injEq]
    constructor
    · rintro ⟨rfl, rfl⟩
      exact ⟨[], content, rfl, rfl, rfl⟩
    · rintro ⟨names, content', rfl, hat, rfl⟩
      cases names with
      | nil => exact ⟨rfl, (Option.some.inj hat).symm⟩
      | cons name names => cases hat
  | directory es ih =>
    rw [hwalk.walk_eq, walkEntries_eq_flatMap, List.mem_flatMap]
    constructor
    · rintro ⟨e, he, hmet⟩
      obtain ⟨names, content, rfl, hat, rfl⟩ := (ih e he (hsound.entry he) (hwalk.entry he)).mp hmet
      exact ⟨e.1 :: names, content, rfl, (hsound.at?_of_mem he names).trans hat, rfl⟩
    · rintro ⟨names, content, rfl, hat, rfl⟩
      cases names with
      | nil => cases hat
      | cons name names =>
        obtain ⟨child, hchild, hrest⟩ := Option.bind_eq_some_iff.mp hat
        have he := (lookup_eq_some_iff hsound.entries_ascending).mp hchild
        exact ⟨_, he, (ih _ he (hsound.entry he) (hwalk.entry he)).mpr
          ⟨names, content, rfl, hrest, rfl⟩⟩

/-- What lies at a position takes in what is set below it. -/
theorem at?_put_append {p : List String} {s : FileTree} (h : t.at? p = some s) (q : List String)
    (new : FileTree) : (t.put (p ++ q) new).at? p = some (s.put q new) := by
  induction p generalizing t with
  | nil =>
    obtain rfl := Option.some.inj h
    rfl
  | cons name p ih =>
    rw [at?_cons] at h
    obtain ⟨child, hchild, hrest⟩ := Option.bind_eq_some_iff.mp h
    rw [List.cons_append, put, at?_cons, entries, lookup_putEntry, if_pos rfl, hchild,
      Option.getD_some, Option.bind_some, ih hrest]

/-- An entry that is put in again stays at its place. -/
theorem putEntry_of_ascending {before after : List (String × FileTree)} {name : String}
    (h : ((before ++ (name, t) :: after).map Prod.fst).Pairwise (· < ·)) :
    putEntry name new (before ++ (name, t) :: after) = before ++ (name, new) :: after := by
  induction before with
  | nil =>
    rw [List.nil_append, putEntry, if_neg Std.lt_irrefl, if_neg Std.lt_irrefl, List.nil_append]
  | cons e before ih =>
    rw [List.cons_append, List.map_cons, List.pairwise_cons] at h
    have hlt : e.1 < name := h.1 name (List.mem_map.mpr ⟨(name, t), by simp, rfl⟩)
    rw [List.cons_append, putEntry, if_neg (Std.not_gt_of_lt hlt), if_pos hlt, ih h.2,
      List.cons_append]

/-- Where a file is set anew, the walk goes on as before. -/
theorem exists_walk_put (hsound : t.Sound) (hwalk : t.Walks path) {old : Except PathFault ByteArray}
    (hat : t.at? names = some (.file old)) (content : Except PathFault ByteArray) :
    ∃ before after,
      t.walk path = before ++ .ok (Pathname.below path names, .file old) :: after ∧
      (t.put names (.file content)).walk path
        = before ++ .ok (Pathname.below path names, .file content) :: after := by
  induction names generalizing t path with
  | nil =>
    obtain rfl := Option.some.inj hat
    exact ⟨[], [], by rw [walk]; rfl, by rw [put, walk]; rfl⟩
  | cons name names ih =>
    cases t with
    | file content => cases hat
    | directory es =>
      obtain ⟨child, hchild, hrest⟩ : ∃ child, es.lookup name = some child ∧
          child.at? names = some (.file old) := Option.bind_eq_some_iff.mp hat
      have he := (lookup_eq_some_iff hsound.entries_ascending).mp hchild
      obtain ⟨first, last, heq⟩ := List.append_of_mem he
      obtain ⟨before, after, hold, hnew⟩ := ih (hsound.entry he) (hwalk.entry he) hrest
      -- the directory is walked without a fault, so its path is not too long
      have hshort : Pathname.isTooLong path = false := by
        by_contra hlong
        obtain ⟨file, hfile⟩ := hwalk (.error path) (by simp_all [walk])
        cases hfile
      have hput : (directory es).put (name :: names) (.file content)
          = directory (first ++ (name, child.put names (.file content)) :: last) := by
        rw [put, entries, hchild, Option.getD_some, heq,
          putEntry_of_ascending (heq ▸ hsound.entries_ascending)]
      refine ⟨walkEntries path first ++ before, after ++ walkEntries path last, ?_, ?_⟩
      · rw [hwalk.walk_eq, heq]
        simp only [walkEntries_eq_flatMap, List.flatMap_append, List.flatMap_cons, hold,
          List.append_assoc, List.cons_append, Pathname.below, List.foldl_cons]
      · rw [hput, walk, hshort, if_neg Bool.false_ne_true]
        simp only [walkEntries_eq_flatMap, List.flatMap_append, List.flatMap_cons, hnew,
          List.append_assoc, List.cons_append, Pathname.below, List.foldl_cons]

/-- Positions compare by the first name in which they differ, and names by their bytes. -/
def Precedes : List String → List String → Prop :=
  List.Lex fun a b => Text.bytes a < Text.bytes b

end FileTree

namespace Disk
variable {d : Disk} {t f : FileTree} {path : String} {p names : List String}

theorem destination_below (h : ∀ n ∈ names, Pathname.IsPlain n) (path : String) :
    d.destination (Pathname.below path names) = d.destination path ++ names := by
  induction names generalizing path with
  | nil => exact (List.append_nil _).symm
  | cons name names ih =>
    rw [List.forall_mem_cons] at h
    rw [Pathname.below, List.foldl_cons, ← Pathname.below, ih h.2, destination_join h.1,
      List.append_assoc, List.singleton_append]

/-- Of two files that are met, the first precedes the second. -/
theorem precedes_of_walk (d : Disk) (hsound : t.Sound) (hwalk : t.Walks path) :
    (t.walk path).Pairwise fun x y => ∀ e e', x = .ok e → y = .ok e' →
      FileTree.Precedes (d.destination e.1) (d.destination e'.1) := by
  induction t using FileTree.entries_induction generalizing path with
  | file content =>
    rw [FileTree.walk]
    exact List.pairwise_singleton _ _
  | directory es ih =>
    -- what is met in an entry lies below its name, and the names are in byte order
    have hposition {e : String × FileTree} (he : e ∈ es) {file : String × FileTree}
        (hfile : .ok file ∈ e.2.walk (Pathname.join path e.1)) :
        ∃ names, d.destination file.1 = d.destination path ++ e.1 :: names := by
      obtain ⟨names, _, hq, hat, -⟩ :=
        (FileTree.mem_walk (hsound.entry he) (hwalk.entry he)).mp hfile
      have hplain := fun n hn => ((hsound.entry he).isEntryName hat n hn).plain
      refine ⟨names, ?_⟩
      rw [hq, destination_below hplain, destination_join (hsound.name_of_mem he).plain,
        List.append_assoc, List.singleton_append]
    rw [hwalk.walk_eq, FileTree.walkEntries_eq_flatMap, List.pairwise_flatMap]
    refine ⟨fun e he => ih e he (hsound.entry he) (hwalk.entry he), ?_⟩
    refine (List.pairwise_map.mp hsound.entries_ascending).imp_of_mem
      fun {a b} ha hb hlt x hx y hy e e' hxe hye => ?_
    subst hxe hye
    obtain ⟨ns, hns⟩ := hposition ha hx
    obtain ⟨ms, hms⟩ := hposition hb hy
    rw [hns, hms]
    have hfirst : FileTree.Precedes (a.1 :: ns) (b.1 :: ms) := List.Lex.rel (Text.bytes_lt hlt)
    exact List.Lex.append_left _ hfirst _

section Below

theorem step_of_isEntryName {es : List (String × FileTree)}
    (hp : d.root.at? p = some (.directory es)) {name : String} (h : Pathname.IsEntryName name) :
    d.step p name = .ok (p ++ [name]) := by
  obtain ⟨⟨_, hempty, hpoint, hpoints⟩, _, hshort⟩ := h
  rw [step, hp]
  simp [hempty, hpoint, hpoints, Nat.not_lt.mpr hshort]

theorem position?_eq_ok_iff : d.position? path = .ok p ↔
    Pathname.IsLegal path ∧ Pathname.isTooLong path = false ∧
      (Pathname.parts path).foldlM d.step (d.start path) = .ok p := by
  have hlegal : Pathname.IsLegal path ↔ path ≠ "" ∧ '\x00' ∉ path.toList :=
    ⟨fun h => ⟨h.nonempty, h.nonzero⟩, fun h => ⟨h.1, h.2⟩⟩
  rw [position?, follow, hlegal]
  split_ifs <;> simp_all

theorem tree?_eq_ok_iff : d.tree? path = .ok t ↔
    ∃ p, d.position? path = .ok p ∧ d.root.at? p = some t := by
  rw [tree?, Failure.bind_eq_ok_iff]
  refine exists_congr fun p => and_congr_right fun _ => ?_
  split
  · next s hs => simp [hs, pure, Except.pure]
  · next hnone => simp [hnone, throw, throwThe, MonadExceptOf.throw]

theorem tree?_of_isTooLong (h : Pathname.IsLegal path) (hlong : Pathname.isTooLong path = true) :
    d.tree? path = .error invalidName := by
  have hposition : d.position? path = .error invalidName := by
    rw [position?, follow, if_neg (mt String.isEmpty_iff.mp h.nonempty),
      if_neg (by simpa using h.nonzero), if_pos hlong]
  rw [tree?, hposition]
  rfl

theorem position?_join {es : List (String × FileTree)} (hpath : d.position? path = .ok p)
    (hp : d.root.at? p = some (.directory es)) {name : String} (h : Pathname.IsEntryName name)
    (hshort : Pathname.isTooLong (Pathname.join path name) = false) :
    d.position? (Pathname.join path name) = .ok (p ++ [name]) := by
  obtain ⟨hlegal, -, hfollow⟩ := position?_eq_ok_iff.mp hpath
  obtain ⟨directory, rest, hdirectory, hrest, hjoin⟩ :=
    Pathname.exists_join_eq hlegal.nonempty h.plain
  have hstart : d.start (Pathname.join path name) = d.start path := by
    rw [hrest, start, start, Pathname.isAbsolute_append hlegal.nonempty]
  have haround : (Pathname.parts directory).foldlM d.step (d.start path) = .ok p := by
    rcases hdirectory with rfl | hslash
    · exact hfollow
    · -- the slash at the end takes one more step, which leads nowhere
      have hparts : Pathname.parts path = Pathname.parts directory ++ [""] := by
        have hempty := Pathname.parts_append_slash directory ""
        rwa [String.append_empty, ← hslash] at hempty
      rw [hparts, List.foldlM_append] at hfollow
      obtain ⟨q, hq, hlast⟩ := Failure.bind_eq_ok_iff.mp hfollow
      obtain ⟨q', hstep, hdone⟩ := Failure.bind_eq_ok_iff.mp hlast
      obtain rfl := Except.ok.inj hdone
      obtain ⟨-, rfl⟩ := step_eq_ok hstep
      exact hq
  refine position?_eq_ok_iff.mpr ⟨hlegal.join h, hshort, ?_⟩
  rw [hstart, hjoin, Pathname.parts_append_slash, List.foldlM_append, haround,
    Pathname.parts_of_notMem h.plain.1]
  exact (congrArg (· >>= pure) (step_of_isEntryName hp h)).trans rfl

/-- A path name of what is below a directory leads there, if it is not too long. -/
theorem position?_below (hpath : d.position? path = .ok p) (hp : d.root.at? p = some t)
    (hsound : t.Sound) (hat : t.at? names = some f)
    (hshort : Pathname.isTooLong (Pathname.below path names) = false) :
    d.position? (Pathname.below path names) = .ok (p ++ names) := by
  induction names generalizing path p t with
  | nil => rwa [List.append_nil]
  | cons name names ih =>
    cases t with
    | file content => cases hat
    | directory es =>
      obtain ⟨child, hchild, hrest⟩ : ∃ child, es.lookup name = some child ∧
          child.at? names = some f := Option.bind_eq_some_iff.mp hat
      have he := (FileTree.lookup_eq_some_iff hsound.entries_ascending).mp hchild
      have hplain := fun n hn => ((hsound.entry he).isEntryName hrest n hn).plain
      have hjoin := position?_join hpath hp (hsound.name_of_mem he)
        (Pathname.isTooLong_of_below hplain hshort)
      have hnext : d.root.at? (p ++ [name]) = some child := by
        rw [FileTree.at?_append, hp, Option.bind_some, hsound.at?_of_mem he]
        rfl
      have hfound := ih hjoin hnext (hsound.entry he) hrest hshort
      rwa [List.append_assoc] at hfound

/-- What is found of a file that is met below a directory. -/
theorem tree?_below (hpath : d.tree? path = .ok t) (hsound : t.Sound)
    (hat : t.at? names = some f) : d.tree? (Pathname.below path names)
      = if Pathname.isTooLong (Pathname.below path names) then .error invalidName else .ok f := by
  obtain ⟨p, hposition, hp⟩ := tree?_eq_ok_iff.mp hpath
  split
  · next hlong =>
    exact tree?_of_isTooLong
      ((position?_eq_ok_iff.mp hposition).1.below (hsound.isEntryName hat)) hlong
  · next hshort =>
    refine tree?_eq_ok_iff.mpr ⟨p ++ names,
      position?_below hposition hp hsound hat (by simpa using hshort), ?_⟩
    rw [FileTree.at?_append, hp, Option.bind_some, hat]

/-- A file that is set anew is found anew, and its directory takes it in. -/
theorem tree?_put_below (hpath : d.tree? path = .ok t) (hsound : t.Sound)
    {old : Except PathFault ByteArray} (hat : t.at? names = some (.file old))
    (content : Except PathFault ByteArray) {d' : Disk}
    (hd' : d' = d.put (d.destination (Pathname.below path names)) (.file content)) :
    d'.tree? path = .ok (t.put names (.file content)) ∧
    d'.tree? (Pathname.below path names)
      = if Pathname.isTooLong (Pathname.below path names) then .error invalidName
        else .ok (.file content) := by
  obtain ⟨p, hposition, hp⟩ := tree?_eq_ok_iff.mp hpath
  have hnames := hsound.isEntryName hat
  have hdestination : d.destination (Pathname.below path names) = p ++ names := by
    rw [destination_below (fun n hn => (hnames n hn).plain), eq_destination hposition]
  rw [hdestination] at hd'
  subst hd'
  have hfile : ∀ s, d.root.at? (p ++ names) = some s → s.isDirectory = false := by
    intro s hs
    rw [FileTree.at?_append, hp, Option.bind_some, hat] at hs
    obtain rfl := Option.some.inj hs
    rfl
  constructor
  · exact tree?_eq_ok_iff.mpr
      ⟨p, position?_put hfile hposition, FileTree.at?_put_append hp names _⟩
  · split
    · next hlong =>
      exact tree?_of_isTooLong ((position?_eq_ok_iff.mp hposition).1.below hnames) hlong
    · next hshort =>
      have hbelow := position?_below hposition hp hsound hat (by simpa using hshort)
      exact tree?_eq_ok_iff.mpr
        ⟨p ++ names, position?_put hfile hbelow, FileTree.at?_put_self d.root _ _⟩

end Below

end Disk

end ActorLinks
