import ActorLinks.Proofs.File.Writes
import ActorLinks.Proofs.Generation
import ActorLinks.Proofs.Manifest.Loading
import ActorLinks.Proofs.Record.Manifest
import ActorLinks.Session

/-! # The files that a generation leaves

A generation that ends well has written, in order, every source of every manifest it has loaded.
The sources whose files' names coincide overwrite each other, so that a source is kept just if no
later one has its destination. The names are made of the manifest's name and that of the source;
nothing keeps two manifests from having one name.
-/
namespace ActorLinks

theorem FileTree.walk_ofText (path text : String) :
    (FileTree.ofText text).walk path = [.ok (path, .ofText text)] := by
  rw [FileTree.ofText, FileTree.ofBytes, FileTree.walk]

theorem Manifest.addition?_ofText {path text : String} {format : Record.Format} {m : Manifest}
    (hformat : formatOf? path = some format) (hshort : Pathname.isTooLong path = false)
    (hparse : parse format text = .ok m) :
    addition? path (opened (path, .ofText text)) = some (path, m.nameAfter path) := by
  rw [opened, hshort, addition?, ofFile, hformat]
  simp only [Bool.false_eq_true, if_false, Except.bind, FileTree.text?_ofText, hparse, Except.map]
  rfl

namespace Session
variable {s s' : Session} {α : Type} {f : Session → α → Session × Option Failure}

section Each

theorem each_cons_eq_none {x : α} {xs : List α} (h : s.each f (x :: xs) = (s', none)) :
    ∃ next, f s x = (next, none) ∧ next.each f xs = (s', none) := by
  rw [each] at h
  cases hf : f s x with
  | mk next failure =>
    rw [hf] at h
    cases failure with
    | none => exact ⟨next, rfl, h⟩
    | some e => cases h

theorem andThen_eq_none {r : Session × Option Failure} {f : Session → Session × Option Failure}
    (h : andThen r f = (s', none)) : ∃ next, r = (next, none) ∧ f next = (s', none) := by
  obtain ⟨next, failure⟩ := r
  cases failure with
  | none => exact ⟨next, rfl, h⟩
  | some e => cases h

theorem withResult_eq_none {r : Except Failure α} {f : α → Session × Option Failure}
    (h : s.withResult r f = (s', none)) : ∃ a, r = .ok a ∧ f a = (s', none) := by
  cases r with
  | ok a => exact ⟨a, rfl, h⟩
  | error e => cases h

end Each

/-- The path name and the text of a source of a manifest. -/
def output (out : String) (g : Manifest × Source) : String × String :=
  (filePath out g.1 g.2, g.2.text)

/-- The sources that are made of a manifest, with the configuration as it is on the disk. -/
def sourcesOf (configPath : String) (s : Session) (m : Manifest) : List Source :=
  match s.config configPath with
  | .error _ => []
  | .ok c =>
    match (m.graph.generate c.output).2 with
    | .ok sources => sources
    | .error _ => []

/-- The sources that are made of some manifests one after the other, with their manifests. -/
def sourcesOfAll (configPath out : String) (s : Session) :
    List (String × Manifest) → List (Manifest × Source)
  | [] => []
  | found :: rest =>
    (s.sourcesOf configPath found.2).map (found.2, ·)
      ++ sourcesOfAll configPath out (generateOne configPath (some out) s found).1 rest

/-- The sources that a generation from a directory makes of the manifests that it loads. -/
def generated (d : Disk) (directory out : String) (config : Option String) :
    List (Manifest × Source) :=
  let configPath := config.getD defaultConfigPath
  let prepared := ({ disk := d } : Session).makeDirectories out
  match prepared.1.manifests directory with
  | .ok found => sourcesOfAll configPath out prepared.1 found
  | .error _ => []

/-- A run that writes what it generates. -/
def generation (d : Disk) (directory out : String) (config : Option String) : Session × Ending :=
  run d (.run (.generate directory (some out)) config)

/-- Where the path name of a source leads. -/
def destination (d : Disk) (out : String) (g : Manifest × Source) : List String :=
  d.destination (output out g).1

/-- After the run every source that was made is on the disk, in a file of its own. -/
def KeepsSources (d : Disk) (directory out : String) (config : Option String) : Prop :=
  (generation d directory out config).1.disk.HoldsApart
    ((generated d directory out config).map (output out))

/-- The name of the file of a source. -/
def fileName (g : Manifest × Source) : String := g.1.outputName ++ "." ++ g.2.fileName

theorem isPlain_fileName {g : Manifest × Source} (h : '/' ∉ (fileName g).toList) :
    Pathname.IsPlain (fileName g) := by
  have hending : ".g.cs".toList.length = 5 := rfl
  have hlength : 5 ≤ (fileName g).toList.length := by
    simp only [fileName, Source.fileName, String.toList_append, List.length_append, hending]
    omega
  have hne : ∀ name : String, name.toList.length < 5 → fileName g ≠ name := by
    rintro name hshort rfl
    omega
  exact ⟨h, hne "" (by decide), hne "." (by decide), hne ".." (by decide)⟩

theorem sourcesOf_eq {configPath : String} {c : Config} {m : Manifest} {sources : List Source}
    (hc : s.config configPath = .ok c) (h : (m.graph.generate c.output).2 = .ok sources) :
    s.sourcesOf configPath m = sources := by
  rw [sourcesOf, hc]
  simp only [h]

section Writes
variable {out configPath : String} {m : Manifest}

theorem disk_of_emit {source : Source} (h : emit (some out) m s source = (s', none)) :
    s.disk.write (filePath out m source) source.text = .ok s'.disk := by
  obtain ⟨next, hwrite, hprint⟩ := andThen_eq_none h
  cases hprint
  rw [Session.write] at hwrite
  split at hwrite
  · next d hd =>
    cases hwrite
    exact hd
  · cases hwrite

theorem disk_of_each_emit {sources : List Source}
    (h : s.each (emit (some out) m) sources = (s', none)) :
    s.disk.writeAll ((sources.map (m, ·)).map (output out)) = .ok s'.disk := by
  induction sources generalizing s with
  | nil =>
    cases h
    rfl
  | cons source sources ih =>
    obtain ⟨next, hemit, hrest⟩ := each_cons_eq_none h
    exact Disk.writeAll_cons_iff.mpr ⟨next.disk, disk_of_emit hemit, ih hrest⟩

theorem disk_of_generateOne {found : String × Manifest}
    (h : generateOne configPath (some out) s found = (s', none)) :
    s.disk.writeAll (((s.sourcesOf configPath found.2).map (found.2, ·)).map (output out))
      = .ok s'.disk := by
  obtain ⟨c, hc, hgenerate⟩ := withResult_eq_none h
  cases hmade : (found.2.graph.generate c.output).2 with
  | ok sources =>
    simp only [hmade] at hgenerate
    rw [sourcesOf_eq hc hmade]
    exact disk_of_each_emit hgenerate
  | error e =>
    -- the manifest is passed over
    simp only [hmade] at hgenerate
    obtain rfl := (Prod.mk.inj hgenerate).1
    rw [sourcesOf, hc]
    simp only [hmade]
    rfl

/-- A row of generations without a failure writes all sources in order. -/
theorem disk_of_each_generateOne {found : List (String × Manifest)}
    (h : s.each (generateOne configPath (some out)) found = (s', none)) :
    s.disk.writeAll ((sourcesOfAll configPath out s found).map (output out)) = .ok s'.disk := by
  induction found generalizing s with
  | nil =>
    cases h
    rfl
  | cons first rest ih =>
    obtain ⟨next, hfirst, hrest⟩ := each_cons_eq_none h
    rw [sourcesOfAll, List.map_append, hfirst]
    exact Disk.writeAll_append_iff.mpr ⟨next.disk, disk_of_generateOne hfirst, ih hrest⟩

theorem exists_each_emit {sources : List Source}
    (h : ∀ source ∈ sources, s.disk.IsWritable (filePath out m source)) :
    ∃ s', s.each (emit (some out) m) sources = (s', none) := by
  induction sources generalizing s with
  | nil => exact ⟨s, rfl⟩
  | cons source sources ih =>
    obtain ⟨d, hd, _⟩ := (h source List.mem_cons_self).exists_write source.text
    obtain ⟨next, hemit, hdisk⟩ : ∃ next, emit (some out) m s source = (next, none) ∧
        next.disk = d := by
      rw [emit]
      simp only [Session.write, hd]
      exact ⟨_, rfl, rfl⟩
    subst hdisk
    obtain ⟨s', hrest⟩ := ih fun other hother =>
      (h other (List.mem_cons_of_mem _ hother)).after_write hd
    refine ⟨s', ?_⟩
    rw [each, hemit]
    exact hrest

/-- Nothing fails where the configuration is not overwritten, every manifest can be generated
from and every file can be written. -/
theorem exists_each_generateOne {found : List (String × Manifest)} {c : Config} {q : List String}
    (hc : s.config configPath = .ok c) (hq : s.disk.position? configPath = .ok q)
    (hfile : ∀ t, s.disk.root.at? q = some t → t.isDirectory = false)
    (hfound : ∀ e ∈ found, ∃ sources, (e.2.graph.generate c.output).2 = .ok sources ∧
      ∀ source ∈ sources, s.disk.IsWritable (filePath out e.2 source) ∧
        s.disk.destination (filePath out e.2 source) ≠ q) :
    (∃ s', s.each (generateOne configPath (some out)) found = (s', none)) ∧
      sourcesOfAll configPath out s found
        = found.flatMap fun e => (s.sourcesOf configPath e.2).map (e.2, ·) := by
  induction found generalizing s with
  | nil => exact ⟨⟨s, rfl⟩, rfl⟩
  | cons e found ih =>
    obtain ⟨sources, hsources, hgood⟩ := hfound e List.mem_cons_self
    obtain ⟨next, hemits⟩ := exists_each_emit fun source hsource => (hgood source hsource).1
    have hnext : generateOne configPath (some out) s e = (next, none) := by
      rw [generateOne, hc, withResult]
      simp only [hsources]
      exact hemits
    have hwritten := disk_of_each_emit hemits
    have hnot : q ∉ ((sources.map (e.2, ·)).map (output out)).map
        fun item => s.disk.destination item.1 := by
      rw [List.map_map, List.map_map, List.mem_map]
      rintro ⟨source, hsource, hsame⟩
      exact (hgood source hsource).2 hsame
    -- the sources are written elsewhere, so the next manifest finds the same configuration
    have hconfig : next.config configPath = s.config configPath := by
      rw [config, config, Disk.tree?_writeAll_of_notMem hwritten hq hfile hnot]
    have hsame : ∀ m, next.sourcesOf configPath m = s.sourcesOf configPath m := fun m => by
      rw [sourcesOf, sourcesOf, hconfig]
    obtain ⟨⟨s', hrest⟩, hall⟩ := ih (hconfig.trans hc) (Disk.position?_writeAll hwritten hq)
      (Disk.at?_writeAll_of_notMem hwritten hfile hnot ▸ hfile) fun e' he' => by
        obtain ⟨sources', hsources', hgood'⟩ := hfound e' (List.mem_cons_of_mem _ he')
        refine ⟨sources', hsources', fun source hsource => ?_⟩
        rw [Disk.destination_writeAll hwritten]
        exact ⟨(hgood' source hsource).1.after_writeAll hwritten, (hgood' source hsource).2⟩
    refine ⟨⟨s', ?_⟩, ?_⟩
    · rw [each, hnext]
      exact hrest
    · rw [sourcesOfAll, hnext, List.flatMap_cons, hall]
      simp only [hsame]

end Writes

section Run
variable {d : Disk} {directory out : String} {config : Option String}

theorem current_makeDirectories {path : String} (h : s.makeDirectories path = (s', none)) :
    s'.disk.current = s.disk.current := by
  rw [makeDirectories] at h
  split at h
  · next d hd =>
    cases h
    exact Disk.current_makeDirectories hd
  · cases h

theorem each_of_generation (h : (generation d directory out config).2.exitCode = 0) :
    ∃ prepared found, ({ disk := d } : Session).makeDirectories out = (prepared, none) ∧
      prepared.manifests directory = .ok found ∧
      prepared.each (generateOne (config.getD defaultConfigPath) (some out)) found
        = ((generation d directory out config).1, none) := by
  rw [generation, run] at h ⊢
  split at h
  · next final hdone =>
    obtain ⟨_, _, hperform⟩ := withResult_eq_none hdone
    obtain ⟨prepared, hprepared, hload⟩ := andThen_eq_none hperform
    obtain ⟨found, hfound, hall⟩ := withResult_eq_none hload
    exact ⟨prepared, found, hprepared, hfound, hall⟩
  · exact absurd h (by simp [Ending.exitCode])

/-- A run to which nothing happens on the way ends well. -/
theorem generation_of_each {c : Config} {prepared final : Session}
    {found : List (String × Manifest)}
    (hc : ({ disk := d } : Session).config (config.getD defaultConfigPath) = .ok c)
    (hprepared : ({ disk := d } : Session).makeDirectories out = (prepared, none))
    (hfound : prepared.manifests directory = .ok found)
    (hall : prepared.each (generateOne (config.getD defaultConfigPath) (some out)) found
      = (final, none)) :
    generation d directory out config = (final, .done) := by
  have hdone : (({ disk := d } : Session).withResult
      (({ disk := d } : Session).config (config.getD defaultConfigPath)) fun _ =>
        ({ disk := d } : Session).perform (config.getD defaultConfigPath)
          (.generate directory (some out))) = (final, none) := by
    rw [hc, withResult, perform]
    simp only [hprepared, andThen, hfound, withResult]
    exact hall
  rw [generation, run]
  simp only [hdone]

section
variable (h : (generation d directory out config).2.exitCode = 0)
include h

/-- Such a run has written all sources in order to a disk with the same current directory. -/
theorem writeAll_of_generation : ∃ before : Disk, before.current = d.current ∧
    before.writeAll ((generated d directory out config).map (output out))
      = .ok (generation d directory out config).1.disk := by
  obtain ⟨prepared, found, hprepared, hfound, hall⟩ := each_of_generation h
  refine ⟨prepared.disk, current_makeDirectories hprepared, ?_⟩
  rw [generated]
  simp only [hprepared, hfound]
  exact disk_of_each_generateOne hall

/-- A file has the text of the last source that was written to it. -/
theorem text?_of_generation {before later : List (Manifest × Source)} {g g' : Manifest × Source}
    (hmade : generated d directory out config = before ++ g :: later)
    (hlast : destination d out g ∉ later.map (destination d out))
    (hg' : g' ∈ generated d directory out config)
    (hsame : destination d out g' = destination d out g) :
    (generation d directory out config).1.disk.text? (output out g').1 = .ok g.2.text := by
  obtain ⟨start, hcurrent, hwritten⟩ := writeAll_of_generation h
  have hmem : output out g'
      ∈ before.map (output out) ++ output out g :: later.map (output out) := by
    rw [← List.map_cons, ← List.map_append, ← hmade]
    exact List.mem_map_of_mem hg'
  rw [hmade, List.map_append, List.map_cons] at hwritten
  refine Disk.text?_writeAll_last hwritten ?_ hmem ?_
  · rw [List.map_map]
    simp only [Function.comp_def, Disk.destination_eq hcurrent]
    exact hlast
  · rw [Disk.destination_eq hcurrent, Disk.destination_eq hcurrent]
    exact hsame

theorem keepsSources_iff : KeepsSources d directory out config ↔
    ((generated d directory out config).map (destination d out)).Nodup := by
  obtain ⟨start, hcurrent, hwritten⟩ := writeAll_of_generation h
  rw [KeepsSources, Disk.holdsApart_iff hwritten, List.map_map]
  simp only [Function.comp_def, Disk.destination_eq hcurrent]
  rfl

/-- Names without slashes lead to one directory, where they are told apart. -/
theorem keepsSources_iff_of_plain
    (hplain : ∀ g ∈ generated d directory out config, '/' ∉ (fileName g).toList) :
    KeepsSources d directory out config ↔
      ((generated d directory out config).map fileName).Nodup := by
  have hdestinations : (generated d directory out config).map (destination d out)
      = ((generated d directory out config).map fileName).map
        fun name => d.destination out ++ [name] := by
    rw [List.map_map]
    exact List.map_congr_left fun g hg =>
      Disk.destination_join (isPlain_fileName (hplain g hg)) out
  rw [keepsSources_iff h, hdestinations, List.nodup_map_iff fun _ _ heq =>
    List.singleton_injective (List.append_cancel_left heq)]

end

/-- A run that ends well leaves the text of every source that no later source overwrites. All
sources are on the disk, each in a file of its own, just if the destinations of their path names
differ, which for names without slashes is to say that the names differ. -/
theorem generated_sources_kept (h : (generation d directory out config).2.exitCode = 0) :
    (∀ before g later, generated d directory out config = before ++ g :: later →
      destination d out g ∉ later.map (destination d out) →
      ∀ g' ∈ generated d directory out config, destination d out g' = destination d out g →
        (generation d directory out config).1.disk.text? (output out g').1 = .ok g.2.text) ∧
    (KeepsSources d directory out config ↔
      ((generated d directory out config).map (destination d out)).Nodup) ∧
    ((∀ g ∈ generated d directory out config, '/' ∉ (fileName g).toList) →
      (KeepsSources d directory out config ↔
        ((generated d directory out config).map fileName).Nodup)) :=
  ⟨fun _ _ _ hmade hlast _ hg' hsame => text?_of_generation h hmade hlast hg' hsame,
    keepsSources_iff h, keepsSources_iff_of_plain h⟩

end Run

section Sample

def userTarget : Target where
  actor := "Discord.IUserActor"
  entity := "Discord.IUser"
  id := "ulong"
  model := "Discord.Models.IUserModel"

def guildTarget : Target where
  actor := "Discord.IGuildActor"
  entity := "Discord.IGuild"
  id := "ulong"
  model := "Discord.Models.IGuildModel"

/-- A manifest of one target, with no link types below the root. -/
def manifestFor (t : Target) : Manifest where
  schematic := ⟨⟨"Discord.ILinkType", [], [], []⟩⟩
  targets := [t]

def aliasesFor (t : Target) : Source := ⟨"LinkAliases", aliasText (manifestFor t).compilation [t]⟩

theorem generate_manifestFor {t : Target} (ht : t = userTarget ∨ t = guildTarget) :
    ∃ text, ((manifestFor t).graph.generate {}).2 = .ok [⟨t.actor, text⟩, aliasesFor t] := by
  have hmade : ((manifestFor t).graph.generate {}).2.toOption.map
      (fun sources => (sources.map (·.name), sources.drop 1))
        = some ([t.actor, "LinkAliases"], [aliasesFor t]) := by
    rcases ht with rfl | rfl <;> decide +kernel
  cases hgenerate : ((manifestFor t).graph.generate {}).2 with
  | error e =>
    rw [hgenerate] at hmade
    cases hmade
  | ok sources =>
    rw [hgenerate] at hmade
    obtain ⟨hnames, haliases⟩ := Prod.mk.inj (Option.some.inj hmade)
    cases sources with
    | nil => cases hnames
    | cons first rest =>
      obtain rfl : rest = [aliasesFor t] := haliases
      obtain ⟨hname, _⟩ := List.cons.inj hnames
      exact ⟨first.text, by rw [← hname]⟩

def namedFor (name : String) (t : Target) : Manifest := { manifestFor t with name := some name }

/-- Two files in directories of their own, with a name for the second. -/
def twoFiles (name first second : String) : FileTree :=
  .directory [("a", .directory [("links.json", .ofText first)]),
    ("b", .directory [(name ++ ".json", .ofText second)])]

def manifestText (t : Target) : String := Json.pretty (Record.encode (manifestFor t))

theorem parse_manifestFor {t : Target} (ht : t = userTarget ∨ t = guildTarget) :
    Manifest.parse .json (manifestText t) = .ok (manifestFor t) := by
  refine Record.Format.parse_of_write? (Record.IsAccepted.accepts _ _) ?_ rfl
  rcases ht with rfl | rfl <;> decide

def manifestDisk (name : String) : Disk :=
  ⟨.directory [("manifests", twoFiles name (manifestText userTarget) (manifestText guildTarget))],
    []⟩

def preparedDisk (tree : FileTree) : Disk :=
  ⟨.directory [("manifests", tree), ("out", .empty)], []⟩

theorem makeDirectories_sample (tree : FileTree) :
    ({ disk := ⟨.directory [("manifests", tree)], []⟩ } : Session).makeDirectories "out"
      = ({ disk := preparedDisk tree, made := ["out"] }, none) := by
  have hbehind : ¬ "out" < "manifests" := by decide +kernel
  have hahead : "manifests" < "out" := by decide +kernel
  have hplace : putEntry "out" FileTree.empty [("manifests", tree)]
      = [("manifests", tree), ("out", .empty)] := by
    rw [putEntry, if_neg hbehind, if_pos hahead, putEntry]
  have hmade : Disk.makeDirectories ⟨.directory [("manifests", tree)], []⟩ "out"
      = .ok ⟨.directory (putEntry "out" .empty [("manifests", tree)]), []⟩ := rfl
  rw [makeDirectories, hmade, hplace]
  rfl

/-- The files of both manifests can be written, and none of them is the configuration. -/
theorem isWritable_preparedDisk (tree : FileTree) : ∀ file ∈ ["links.Discord.IUserActor.g.cs",
    "links.LinkAliases.g.cs", "links.Discord.IGuildActor.g.cs", "guilds.Discord.IGuildActor.g.cs",
    "guilds.LinkAliases.g.cs"], (preparedDisk tree).IsWritable (Pathname.join "out" file) ∧
      (preparedDisk tree).destination (Pathname.join "out" file) ≠ ["linkgen.toml"] := by
  have hdestination : ∀ file, (preparedDisk tree).destination (Pathname.join "out" file)
      = Pathname.walk [] (Pathname.join "out" file) := fun file => by
    rw [Disk.destination, Disk.start, preparedDisk, ite_self]
  simp only [List.forall_mem_cons, hdestination]
  exact ⟨⟨⟨"", _, rfl⟩, by decide +kernel⟩, ⟨⟨"", _, rfl⟩, by decide +kernel⟩,
    ⟨⟨"", _, rfl⟩, by decide +kernel⟩, ⟨⟨"", _, rfl⟩, by decide +kernel⟩,
    ⟨⟨"", _, rfl⟩, by decide +kernel⟩, by simp⟩

theorem load_twoFiles {name first second : String} {m m' : Manifest}
    (hname : name = "links" ∨ name = "guilds") (hm : Manifest.parse .json first = .ok m)
    (hm' : Manifest.parse .json second = .ok m') :
    ∃ path', Manifest.load "manifests" (.ok (twoFiles name first second)) = .ok
      [("manifests/a/links.json", { m with name := m.name <|> some "links" }),
        (path', { m' with name := m'.name <|> some name })] := by
  obtain ⟨path, hpath, hformat, hshort, hstem⟩ : ∃ path,
      Pathname.join (Pathname.join "manifests" "b") (name ++ ".json") = path ∧
      Manifest.formatOf? path = some .json ∧ Pathname.isTooLong path = false ∧
      Pathname.stem? path = some name := by
    refine ⟨"manifests/b/" ++ name ++ ".json", ?_⟩
    rcases hname with rfl | rfl <;> decide +kernel
  have hfirst : Pathname.join (Pathname.join "manifests" "a") "links.json"
      = "manifests/a/links.json" := by decide +kernel
  have hlinks : Pathname.stem? "manifests/a/links.json" = some "links" := by decide +kernel
  have huser : Manifest.addition? "manifests/a/links.json" (Manifest.opened (_, .ofText first))
      = some ("manifests/a/links.json", m.nameAfter "manifests/a/links.json") :=
    Manifest.addition?_ofText (by decide +kernel) (by decide +kernel) hm
  have hguild := Manifest.addition?_ofText hformat hshort hm'
  have hlisted : Pathname.isTooLong (Pathname.join "manifests" "a") = false ∧
      Pathname.isTooLong (Pathname.join "manifests" "b") = false := by decide +kernel
  have hwalk : FileTree.walkEntries "manifests" [("a", .directory [("links.json", .ofText first)]),
      ("b", .directory [(name ++ ".json", .ofText second)])]
      = [("manifests/a/links.json", .ofText first), (path, .ofText second)].map Except.ok := by
    simp only [FileTree.walkEntries, FileTree.walk, hlisted, Bool.false_eq_true, if_false,
      FileTree.walk_ofText, List.append_nil, List.singleton_append, hpath, hfirst, List.map_cons,
      List.map_nil]
  refine ⟨path, ?_⟩
  rw [twoFiles, Manifest.load, hwalk, Manifest.foldlM_loadMet]
  simp only [List.nil_append, Manifest.additions, List.filterMap_cons, huser, hguild,
    List.filterMap_nil, Manifest.nameAfter, hlinks, hstem]

theorem generate_found {name : String} (hname : name = "links" ∨ name = "guilds")
    (tree : FileTree) (path path' : String) :
    ∀ e ∈ [(path, namedFor "links" userTarget), (path', namedFor name guildTarget)],
      ∃ sources, (e.2.graph.generate {}).2 = .ok sources ∧ ∀ source ∈ sources,
        (preparedDisk tree).IsWritable (filePath "out" e.2 source) ∧
        (preparedDisk tree).destination (filePath "out" e.2 source) ≠ ["linkgen.toml"] := by
  obtain ⟨user, huser⟩ := generate_manifestFor (.inl rfl)
  obtain ⟨guild, hguild⟩ := generate_manifestFor (.inr rfl)
  have hgood := isWritable_preparedDisk tree
  simp only [List.forall_mem_cons] at hgood ⊢
  obtain ⟨huserFile, huserAliases, hlinkFile, hguildFile, hguildAliases, _⟩ := hgood
  refine ⟨⟨_, huser, ?_⟩, ⟨_, hguild, ?_⟩, by simp⟩
  · exact List.forall_mem_cons.mpr ⟨huserFile, List.forall_mem_singleton.mpr huserAliases⟩
  · rcases hname with rfl | rfl
    · exact List.forall_mem_cons.mpr ⟨hlinkFile, List.forall_mem_singleton.mpr huserAliases⟩
    · exact List.forall_mem_cons.mpr ⟨hguildFile, List.forall_mem_singleton.mpr hguildAliases⟩

/-- Both manifests are generated from, whatever the name of the second. -/
theorem generation_manifestDisk {name : String} (hname : name = "links" ∨ name = "guilds") :
    ∃ user guild,
      (generation (manifestDisk name) "manifests" "out" none).2.exitCode = 0 ∧
      generated (manifestDisk name) "manifests" "out" none
        = [(namedFor "links" userTarget, ⟨"Discord.IUserActor", user⟩),
          (namedFor "links" userTarget, aliasesFor userTarget),
          (namedFor name guildTarget, ⟨"Discord.IGuildActor", guild⟩),
          (namedFor name guildTarget, aliasesFor guildTarget)] := by
  obtain ⟨user, huser⟩ := generate_manifestFor (.inl rfl)
  obtain ⟨guild, hguild⟩ := generate_manifestFor (.inr rfl)
  obtain ⟨path, hload⟩ := load_twoFiles hname (parse_manifestFor (.inl rfl))
    (parse_manifestFor (.inr rfl))
  rw [manifestDisk]
  generalize twoFiles name (manifestText userTarget) (manifestText guildTarget) = tree at hload ⊢
  have hprepared := makeDirectories_sample tree
  generalize hs : ({ disk := preparedDisk tree, made := ["out"] } : Session) = s at hprepared
  have hfound : s.manifests "manifests" = .ok [("manifests/a/links.json",
      namedFor "links" userTarget), (path, namedFor name guildTarget)] := by
    rw [← hs]
    exact hload
  have hc : s.config defaultConfigPath = .ok {} := by
    rw [← hs]
    rfl
  obtain ⟨⟨final, hall⟩, hmade⟩ := exists_each_generateOne hc (q := ["linkgen.toml"])
    (by rw [← hs]; rfl) (by rw [← hs]; exact fun t ht => by cases ht)
    (by rw [← hs]; exact generate_found hname tree "manifests/a/links.json" path)
  have husers := sourcesOf_eq (m := namedFor "links" userTarget) hc huser
  have hguilds := sourcesOf_eq (m := namedFor name guildTarget) hc hguild
  refine ⟨user, guild, ?_, ?_⟩
  · have hdone : generation ⟨.directory [("manifests", tree)], []⟩ "manifests" "out" none
        = (final, .done) := generation_of_each (c := {}) rfl hprepared hfound hall
    rw [hdone]
    rfl
  · rw [generated]
    simp only [hprepared, hfound, Option.getD_none, hmade, List.flatMap_cons, husers, hguilds]
    rfl

theorem generated_sources_kept_guilds :
    (generation (manifestDisk "guilds") "manifests" "out" none).2.exitCode = 0 ∧
    KeepsSources (manifestDisk "guilds") "manifests" "out" none ∧
    (generated (manifestDisk "guilds") "manifests" "out" none).map fileName
      = ["links.Discord.IUserActor.g.cs", "links.LinkAliases.g.cs",
        "guilds.Discord.IGuildActor.g.cs", "guilds.LinkAliases.g.cs"] := by
  obtain ⟨user, guild, hdone, hmade⟩ := generation_manifestDisk (.inr rfl)
  have hnames : (generated (manifestDisk "guilds") "manifests" "out" none).map fileName
      = ["links.Discord.IUserActor.g.cs", "links.LinkAliases.g.cs",
        "guilds.Discord.IGuildActor.g.cs", "guilds.LinkAliases.g.cs"] := by
    rw [hmade]
    rfl
  have hplain : ∀ name ∈ (generated (manifestDisk "guilds") "manifests" "out" none).map fileName,
      '/' ∉ name.toList := by
    rw [hnames]
    decide +kernel
  refine ⟨hdone, ((generated_sources_kept hdone).2.2 fun g hg => ?_).mpr ?_, hnames⟩
  · exact hplain _ (List.mem_map_of_mem hg)
  · rw [hnames]
    decide +kernel

/-- The second of two manifests with one name takes the place of the first, whose aliases are
lost although nothing fails. -/
theorem same_names_overwrite :
    (generation (manifestDisk "links") "manifests" "out" none).2.exitCode = 0 ∧
    ¬ KeepsSources (manifestDisk "links") "manifests" "out" none ∧
    ∃ g ∈ generated (manifestDisk "links") "manifests" "out" none,
      (generation (manifestDisk "links") "manifests" "out" none).1.disk.text? (output "out" g).1
        ≠ .ok g.2.text := by
  obtain ⟨user, guild, hdone, hmade⟩ := generation_manifestDisk (.inl rfl)
  have hpath : (output "out" (namedFor "links" userTarget, aliasesFor userTarget)).1
      = (output "out" (namedFor "links" guildTarget, aliasesFor guildTarget)).1 := by
    simp only [output, filePath, namedFor, aliasesFor, Manifest.outputName, Source.fileName]
  have hmem : (namedFor "links" userTarget, aliasesFor userTarget)
      ∈ generated (manifestDisk "links") "manifests" "out" none := by
    rw [hmade]
    exact .tail _ (.head _)
  have hsplit : generated (manifestDisk "links") "manifests" "out" none
      = [(namedFor "links" userTarget, ⟨"Discord.IUserActor", user⟩),
          (namedFor "links" userTarget, aliasesFor userTarget),
          (namedFor "links" guildTarget, ⟨"Discord.IGuildActor", guild⟩)]
        ++ [(namedFor "links" guildTarget, aliasesFor guildTarget)] := hmade
  have hlast := text?_of_generation hdone hsplit List.not_mem_nil hmem
    (congrArg (manifestDisk "links").destination hpath)
  have hdiffer : (aliasesFor guildTarget).text ≠ (aliasesFor userTarget).text := by
    decide +kernel
  have hlost : (generation (manifestDisk "links") "manifests" "out" none).1.disk.text?
      (output "out" (namedFor "links" userTarget, aliasesFor userTarget)).1
        ≠ .ok (output "out" (namedFor "links" userTarget, aliasesFor userTarget)).2 :=
    fun hkept => hdiffer (Except.ok.inj (hlast.symm.trans hkept))
  exact ⟨hdone, fun hkeeps => hlost (hkeeps.text?_eq _ (List.mem_map_of_mem hmem)), _, hmem, hlost⟩

end Sample

end Session

end ActorLinks
