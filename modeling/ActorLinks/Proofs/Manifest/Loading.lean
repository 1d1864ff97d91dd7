import ActorLinks.Manifest.Load
import ActorLinks.Proofs.File.Walks

/-! # Loading a directory

No failure of a manifest file is fatal. So a directory is loaded whatever its files hold, and each
of them adds its manifest or nothing, for itself alone.
-/
namespace ActorLinks.Manifest
variable {path q : String} {found : Except PathFault FileTree} {m : Manifest} {e : Failure}
  {d : Disk} {t : FileTree} {names : List String} {files : List (String × FileTree)}

section File

theorem isFatal_of_ofFile (h : ofFile path found = .error e) : e.isFatal = false := by
  unfold ofFile at h
  split at h
  · cases h
    rfl
  · next format _ =>
    split at h
    · next fault _ =>
      cases h
      cases fault <;> rfl
    · next text _ =>
      unfold parse Record.Format.parse at h
      split at h
      · cases h
      · cases h
        cases format <;> rfl

/-- Only files with the ending of a manifest are read. -/
theorem extension?_of_ofFile (h : ofFile path found = .ok m) :
    Pathname.extension? path = some "toml" ∨ Pathname.extension? path = some "json" := by
  unfold ofFile at h
  split at h
  · cases h
  · next format hformat =>
    obtain ⟨ending, hending, hname⟩ := Option.bind_eq_some_iff.mp hformat
    have hsame : format.name = ending := by simpa using List.find?_some hname
    rw [hending, ← hsame]
    cases format
    · exact .inl rfl
    · exact .inr rfl

/-- What a file adds to the manifests that are found. -/
def addition? (path : String) (found : Except PathFault FileTree) : Option (String × Manifest) :=
  (ofFile path found).toOption.map (path, ·)

theorem addition?_eq_some_iff : addition? path found = some (q, m) ↔
    path = q ∧ ofFile path found = .ok m := by
  unfold addition?
  cases ofFile path found <;> simp [Except.toOption]

/-- A file that is met, as it is found when it is opened. -/
def opened (file : String × FileTree) : Except PathFault FileTree :=
  if Pathname.isTooLong file.1 then .error Disk.invalidName else .ok file.2

/-- What some files add, each for itself. -/
def additions (files : List (String × FileTree)) : List (String × Manifest) :=
  files.filterMap fun file => addition? file.1 (opened file)

theorem mem_additions : (q, m) ∈ additions files ↔
    ∃ f, (q, f) ∈ files ∧ ofFile q (opened (q, f)) = .ok m := by
  rw [additions, List.mem_filterMap]
  constructor
  · rintro ⟨⟨path, f⟩, hmem, hentry⟩
    obtain ⟨rfl, hok⟩ := addition?_eq_some_iff.mp hentry
    exact ⟨f, hmem, hok⟩
  · rintro ⟨f, hmem, hok⟩
    exact ⟨_, hmem, addition?_eq_some_iff.mpr ⟨rfl, hok⟩⟩

theorem additions_cons (file : String × FileTree) (files : List (String × FileTree)) :
    additions (file :: files) = (addition? file.1 (opened file)).toList ++ additions files := by
  rw [additions, List.filterMap_cons, ← additions]
  cases addition? file.1 (opened file) <;> rfl

theorem additions_append_cons (before after : List (String × FileTree)) (file : String × FileTree) :
    additions (before ++ file :: after)
      = additions before ++ (addition? file.1 (opened file)).toList ++ additions after := by
  rw [additions, List.filterMap_append, List.append_assoc, ← additions_cons]
  rfl

/-- A single file gives its manifest or its failure. -/
theorem load_of_not_isDirectory (h : ∀ t, found = .ok t → t.isDirectory = false) :
    load path found = (ofFile path found).map fun m => [(path, m)] := by
  unfold load
  split
  · next es => cases h _ rfl
  · rfl

end File

section Directory

theorem loadMet_eq (loaded : List (String × Manifest)) (file : String × FileTree) :
    loadMet loaded (.ok file) = .ok (loaded ++ (addition? file.1 (opened file)).toList) := by
  obtain ⟨path, t⟩ := file
  have hopened : opened (path, t) = if Pathname.isTooLong path then .error Disk.invalidName
    else .ok t := rfl
  rw [addition?, loadMet, ← hopened]
  split
  · next hnone =>
    rw [ofFile, Option.isNone_iff_eq_none.mp hnone]
    exact congrArg Except.ok (List.append_nil loaded).symm
  · cases h : ofFile path (opened (path, t)) with
    | ok m => rfl
    | error e =>
      simp only [isFatal_of_ofFile h]
      exact congrArg Except.ok (List.append_nil loaded).symm

theorem foldlM_loadMet (loaded : List (String × Manifest)) (files : List (String × FileTree)) :
    (files.map Except.ok).foldlM loadMet loaded = .ok (loaded ++ additions files) := by
  induction files generalizing loaded with
  | nil => exact congrArg Except.ok (List.append_nil loaded).symm
  | cons file files ih =>
    rw [List.map_cons, List.foldlM_cons, loadMet_eq, additions_cons, ← List.append_assoc]
    exact ih _

/-- Where the walk does not fail, each file that it meets adds what there is to add. -/
theorem load_of_walks (hdirectory : t.isDirectory = true) (hwalk : t.Walks path) :
    load path (.ok t) = .ok (additions (t.files path)) := by
  cases t with
  | file content => cases hdirectory
  | directory es =>
    rw [load, ← hwalk.walk_eq, hwalk.eq_files, foldlM_loadMet, List.nil_append]

end Directory

section Walk
variable (hpath : d.tree? path = .ok t) (hdirectory : t.isDirectory = true) (hsound : t.Sound)
  (hwalk : t.Walks path)
include hsound hwalk

theorem mem_files {f : FileTree} : (q, f) ∈ t.files path ↔ ∃ names content,
    q = Pathname.below path names ∧ t.at? names = some f ∧ f = .file content := by
  rw [← FileTree.mem_walk hsound hwalk, hwalk.eq_files, List.mem_map]
  simp

include hpath

theorem opened_of_mem {file : String × FileTree} (hmem : file ∈ t.files path) :
    opened file = d.tree? file.1 := by
  obtain ⟨names, content, hq, hat, -⟩ := (mem_files hsound hwalk).mp hmem
  rw [opened, hq, Disk.tree?_below hpath hsound hat]

include hdirectory

/-- Where one file is set anew, the others add what they have added before. -/
theorem exists_load_put {old : Except PathFault ByteArray} (hat : t.at? names = some (.file old))
    (content : Except PathFault ByteArray) (hq : q = Pathname.below path names) {d' : Disk}
    (hd' : d' = d.put (d.destination q) (.file content)) :
    ∃ before after,
      additions (t.files path) = before ++ (addition? q (d.tree? q)).toList ++ after ∧
      load path (d'.tree? path) = .ok (before ++ (addition? q (d'.tree? q)).toList ++ after) := by
  subst hq
  obtain ⟨before, after, hold, hnew⟩ := FileTree.exists_walk_put hsound hwalk hat content
  obtain ⟨hpath', hq'⟩ := Disk.tree?_put_below hpath hsound hat content hd'
  obtain ⟨first, rest, hfiles, rfl, hrest⟩ :=
    List.map_eq_append_iff.mp (hwalk.eq_files.symm.trans hold)
  obtain ⟨file, last, rfl, hfile, rfl⟩ := List.map_eq_cons_iff.mp hrest
  obtain rfl := Except.ok.inj hfile
  have hwalk' : (t.put names (.file content)).walk path
      = (first ++ (Pathname.below path names, .file content) :: last).map Except.ok := by
    rw [hnew, List.map_append, List.map_cons]
  have hfiles' : (t.put names (.file content)).files path
      = first ++ (Pathname.below path names, .file content) :: last :=
    List.map_injective_iff.mpr (fun _ _ => Except.ok.inj)
      ((FileTree.Walks.of_eq_map hwalk').eq_files.symm.trans hwalk')
  have hdirectory' : (t.put names (.file content)).isDirectory = true := by
    cases names with
    | nil =>
      rw [Option.some.inj hat] at hdirectory
      cases hdirectory
    | cons name names => rfl
  have hmem : (Pathname.below path names, .file old) ∈ t.files path := by
    rw [hfiles]
    simp
  refine ⟨additions first, additions last, ?_, ?_⟩
  · rw [hfiles, additions_append_cons, opened_of_mem hpath hsound hwalk hmem]
  · rw [hpath', load_of_walks hdirectory' (.of_eq_map hwalk'), hfiles', additions_append_cons, hq']
    rfl

end Walk

/-- A directory whose walk does not fail is loaded, and gives the manifests of just those files
below it that have the ending of a manifest and can be read as one, in the order of their names.
If a file's content changes, its own entry may come or go, and the others stay; what has failed
then is still told when the file is loaded by itself. -/
theorem load_directory (hpath : d.tree? path = .ok t) (hdirectory : t.isDirectory = true)
    (hsound : t.Sound) (hwalk : t.Walks path) :
    ∃ loaded, load path (d.tree? path) = .ok loaded ∧
      (∀ q m, (q, m) ∈ loaded ↔
        (∃ names content, q = Pathname.below path names ∧ t.at? names = some (.file content)) ∧
        (Pathname.extension? q = some "toml" ∨ Pathname.extension? q = some "json") ∧
        ofFile q (d.tree? q) = .ok m) ∧
      (loaded.map fun file => d.destination file.1).Pairwise FileTree.Precedes ∧
      ∀ names old content, t.at? names = some (.file old) →
        let q := Pathname.below path names
        let d' := d.put (d.destination q) (.file content)
        ∃ before after, loaded = before ++ (addition? q (d.tree? q)).toList ++ after ∧
          load path (d'.tree? path) = .ok (before ++ (addition? q (d'.tree? q)).toList ++ after) ∧
          ∀ e, ofFile q (d'.tree? q) = .error e →
            e.isFatal = false ∧ load q (d'.tree? q) = .error e := by
  refine ⟨additions (t.files path), hpath ▸ load_of_walks hdirectory hwalk, fun q m => ?_, ?_, ?_⟩
  · rw [mem_additions]
    constructor
    · rintro ⟨f, hmem, hok⟩
      obtain ⟨names, content, hq, hat, rfl⟩ := (mem_files hsound hwalk).mp hmem
      rw [opened_of_mem hpath hsound hwalk hmem] at hok
      exact ⟨⟨names, content, hq, hat⟩, extension?_of_ofFile hok, hok⟩
    · rintro ⟨⟨names, content, hq, hat⟩, -, hok⟩
      have hmem : (q, .file content) ∈ t.files path :=
        (mem_files hsound hwalk).mpr ⟨names, content, hq, hat, rfl⟩
      exact ⟨_, hmem, (opened_of_mem hpath hsound hwalk hmem).symm ▸ hok⟩
  · have hordered := d.precedes_of_walk hsound hwalk
    rw [hwalk.eq_files, List.pairwise_map] at hordered
    rw [List.pairwise_map]
    refine hordered.filterMap _ fun file file' hprecedes e he e' he' => ?_
    rw [← (addition?_eq_some_iff.mp he).1, ← (addition?_eq_some_iff.mp he').1]
    exact hprecedes file file' rfl rfl
  · intro names old content hat q d'
    obtain ⟨before, after, hbefore, hafter⟩ :=
      exists_load_put hpath hdirectory hsound hwalk hat content rfl (rfl : d' = _)
    refine ⟨before, after, hbefore, hafter, fun e he => ⟨isFatal_of_ofFile he, ?_⟩⟩
    have hfound : ∀ s, d'.tree? q = .ok s → s.isDirectory = false := by
      rw [(Disk.tree?_put_below hpath hsound hat content (rfl : d' = _)).2]
      intro s hs
      split at hs
      · cases hs
      · cases hs
        rfl
    rw [load_of_not_isDirectory hfound, he]
    rfl

/-- A manifest, what is no manifest, and what has not even the ending of one. -/
def mixedTree : FileTree :=
  ((FileTree.empty.put ["a.toml"] (.ofText "")).put ["b", "c.json"] (.ofText "[")).put ["b.txt"]
    (.ofText "")

def mixedDisk : Disk where
  root := FileTree.empty.put ["in"] mixedTree

theorem load_directory_mixedTree :
    mixedDisk.tree? "in" = .ok mixedTree ∧ mixedTree.Sound ∧ mixedTree.Walks "in" ∧
    ∃ loaded, load "in" (mixedDisk.tree? "in") = .ok loaded ∧
      ("in/a.toml", { name := some "a" }) ∈ loaded ∧ (∀ m, ("in/b/c.json", m) ∉ loaded) ∧
      load "in/a.toml" ((mixedDisk.put ["in", "a.toml"] (.file (.error .denied))).tree? "in/a.toml")
        = .error .permissionDenied := by
  have hpath : mixedDisk.tree? "in" = .ok mixedTree := by rfl
  have hsound : mixedTree.Sound := by
    have hfile (text : String) : (FileTree.ofText text).Sound := .file _
    refine ((FileTree.Sound.empty.put (hfile _) ?_).put (hfile _) ?_).put (hfile _) ?_ <;>
      decide +kernel
  have hwalk : mixedTree.Walks "in" := by
    have hmets : mixedTree.walk "in" = [.ok ("in/a.toml", .ofText ""),
        .ok ("in/b/c.json", .ofText "["), .ok ("in/b.txt", .ofText "")] := by rfl
    unfold FileTree.Walks
    rw [hmets]
    simp
  obtain ⟨loaded, hload, hloaded, -, hanew⟩ := load_directory hpath rfl hsound hwalk
  refine ⟨hpath, hsound, hwalk, loaded, hload, ?_, fun m hm => ?_, ?_⟩
  · refine (hloaded _ _).mpr ⟨⟨["a.toml"], .ok "".toUTF8, by decide +kernel, by rfl⟩, .inl ?_, ?_⟩
    · decide +kernel
    · rfl
  · have hbroken : ofFile "in/b/c.json" (mixedDisk.tree? "in/b/c.json") = .error .unreadableJson :=
      rfl
    rw [((hloaded _ m).mp hm).2.2] at hbroken
    cases hbroken
  · obtain ⟨_, _, _, _, hfailed⟩ := hanew ["a.toml"] (.ok "".toUTF8) (.error .denied) rfl
    exact (hfailed .permissionDenied rfl).2

end ActorLinks.Manifest
