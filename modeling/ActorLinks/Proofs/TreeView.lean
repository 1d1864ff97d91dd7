import ActorLinks.Proofs.Build.Explicit
import ActorLinks.Proofs.Generation

/-! # Tree views

The source of an actor that stands in no other type begins with its name space and, where tree
views are written, with a comment that lists its ancestors in their order.
-/
namespace ActorLinks

theorem Line.renderAll_comment (width : Nat) (text : String) (ls : List Line) :
    renderAll width (⟨0, "// " ++ text⟩ :: ls)
      = "// " ++ (text ++ ("\n" ++ renderAll width ls)) := by
  have hblanks : blanks (0 * width) = "" := by
    rw [Nat.zero_mul]
    rfl
  have hline : render width ⟨0, "// " ++ text⟩ = "// " ++ text := by
    rw [render, if_neg (by simp), hblanks, String.empty_append]
  rw [renderAll, List.map_cons, String.join_cons, hline, String.append_assoc, String.append_assoc]
  rfl

namespace TypeDecl

theorem leadingComments_addMembers (d : TypeDecl) (ms : List Member) :
    (d.addMembers ms).leadingComments = d.leadingComments := by
  induction ms generalizing d with
  | nil => rfl
  | cons m ms ih => exact ih (d.addMember m)

theorem leadingComments_addConstraints (d : TypeDecl) (clauses : List String) :
    (d.addConstraints clauses).leadingComments = d.leadingComments := by
  induction clauses generalizing d with
  | nil => rfl
  | cons clause clauses ih => exact ih (d.addConstraint clause)

theorem exists_render_eq (d : TypeDecl) (width : Nat) : ∃ tail, d.render width
    = Line.renderAll width (d.leadingComments.map fun c => ⟨0, "// " ++ c⟩) ++ tail := by
  obtain ⟨more, hmore⟩ : ∃ more,
      d.lines 0 = (d.leadingComments.map fun c => ⟨0, "// " ++ c⟩) ++ more := by
    obtain ⟨comments, access, modifiers, kind, name, bases, constraints, members⟩ := d
    rw [lines, header]
    simp only [List.append_assoc]
    exact ⟨_, rfl⟩
  exact ⟨_, by rw [render_eq, hmore, Line.renderAll_append]⟩

end TypeDecl

namespace LinkGraph
variable {c : Compilation} {s : Schematic} {targets : List Target} {g : LinkGraph}

theorem leadingComments_actorDecl (g : LinkGraph) (i : NodeId) (symbol : TypeSymbol)
    (t : ActorState) (ancestors : List NodeId) :
    (g.actorDecl i symbol t ancestors true).leadingComments = g.treeComment i ancestors := by
  simp only [actorDecl, TypeDecl.leadingComments_addMembers]
  exact TypeDecl.leadingComments_addConstraints _ _

/-- What stands before the declaration. -/
def sourceHead (c : Compilation) (o : Config.Output) (actor : String) : String :=
  (if o.emitPragmas then pragma "disable" else "")
    ++ s!"namespace {(namespaceOf? c actor).getD o.defaultNamespace};\n\n"

/-- The tree view of an actor as it stands in its source. -/
def treeText (g : LinkGraph) (o : Config.Output) (i : NodeId) : String :=
  Line.renderAll o.indent.toNat
    ((g.treeComment i (g.ancestors i)).map fun text => ⟨0, "// " ++ text⟩)

/-- The tree view up to the ancestors. -/
def treeTextHead (o : Config.Output) (t : Target) : String :=
  Line.renderAll o.indent.toNat (["Actor: " ++ t.actor, "Model: " ++ t.model,
    "Entity: " ++ t.entity, "Id: " ++ t.id, "Interfaces:"].map fun text => ⟨0, "// " ++ text⟩)

theorem exists_treeText_eq {i a : NodeId} {as : List NodeId}
    (h : g.ancestors i = a :: as) (o : Config.Output) : ∃ tail, g.treeText o i
      = treeTextHead o (g.target i) ++ ("// " ++ ("  - " ++ ((g.target a).actor ++ tail))) := by
  obtain ⟨rest, hrest⟩ : ∃ rest, g.treeComment i (a :: as)
      = ["Actor: " ++ (g.target i).actor, "Model: " ++ (g.target i).model,
        "Entity: " ++ (g.target i).entity, "Id: " ++ (g.target i).id, "Interfaces:"]
        ++ ("  - " ++ (g.target a).actor) :: rest := ⟨_, rfl⟩
  have hfirst := Line.renderAll_comment o.indent.toNat ("  - " ++ (g.target a).actor)
    (rest.map fun text => ⟨0, "// " ++ text⟩)
  rw [String.append_assoc] at hfirst
  rw [treeText, h, hrest, List.map_append, Line.renderAll_append]
  exact ⟨_, congrArg (treeTextHead o (g.target i) ++ ·) hfirst⟩

theorem exists_sourceText_eq (g : LinkGraph) (o : Config.Output) (actor : String)
    (decl : TypeDecl) : ∃ tail, g.sourceText o actor decl = sourceHead g.compilation o actor
      ++ (Line.renderAll o.indent.toNat (decl.leadingComments.map fun t => ⟨0, "// " ++ t⟩)
        ++ tail) := by
  obtain ⟨tail, htail⟩ := decl.exists_render_eq o.indent.toNat
  rw [sourceText, sourceHead, htail]
  cases o.emitPragmas
  · exact ⟨tail, by simp [String.append_assoc]⟩
  · exact ⟨tail ++ pragma "restore", by simp [String.append_assoc]⟩

theorem leadingComments_of_buildActor (hv : Visits (ofTargets c s targets) g) {i : NodeId}
    (hi : i ∈ g.roots) {symbol : TypeSymbol} (hsymbol : g.actorSymbol? i = some symbol)
    (houter : symbol.containingType = none) {decl : TypeDecl}
    (hdecl : g.buildActor i true = .ok decl) :
    decl.leadingComments = g.treeComment i (g.ancestors i) := by
  obtain ⟨t, ancestors, symbol', below, hat, hsymbol', _, rfl⟩ := exists_of_buildActor hdecl
  obtain rfl := hv.ancestors_of_actorAt hi hat
  obtain rfl : symbol = symbol' := Option.some.inj (hsymbol.symm.trans hsymbol')
  have hnone : g.compilation.chain (·.containingType) none = [] := by
    rw [Compilation.chain, Compilation.chainAfter]
  rw [wrapInContainers, houter, hnone, List.foldl_nil, TypeDecl.leadingComments_addMembers,
    leadingComments_actorDecl]

theorem Complete.mem_sources (h : g.Complete) {o : Config.Output} {sources : List Source}
    (hsources : g.sources o = .ok sources) {name : String} {i : NodeId}
    (hi : g.actor? name = some i) {decl : TypeDecl}
    (hdecl : g.buildActor i o.emitTreeView = .ok decl) :
    ⟨name, g.sourceText o name decl⟩ ∈ sources := by
  obtain ⟨built, hbuilt, hpure⟩ := Failure.bind_eq_ok_iff.mp hsources
  obtain rfl := Except.ok.inj hpure
  exact List.mem_append_left _
    (List.mem_map.mpr ⟨_, (h.mem_built_iff hbuilt).mpr ⟨i, hi, hdecl⟩, rfl⟩)

/-- The tree view shows the ancestors as they were before any visit. -/
theorem exists_headed_source {name : String} {i : NodeId} {symbol : TypeSymbol}
    (hok : (ofTargets c s targets).visit.2 = none)
    (hi : (ofTargets c s targets).actor? name = some i)
    (hsymbol : (ofTargets c s targets).actorSymbol? i = some symbol)
    (houter : symbol.containingType = none) {o : Config.Output} (hview : o.emitTreeView = true) :
    ∃ sources tail, ((ofTargets c s targets).generate o).2 = .ok sources ∧
      sources.map (·.name) = sourceNames targets ∧
      ⟨name, sourceHead c o name ++ ((ofTargets c s targets).treeText o i ++ tail)⟩
        ∈ sources := by
  have hstart : Visits (ofTargets c s targets) (ofTargets c s targets) := .refl
  have hcomplete := hstart.complete_visit hok
  have hv : Visits (ofTargets c s targets) (ofTargets c s targets).visit.1 := hstart.again
  have hprogress := hv.progress
  rw [generate_ofTargets_of_ok hok]
  generalize (ofTargets c s targets).visit.1 = g at *
  have hactor : g.actor? name = some i := by
    rw [hprogress.same]
    exact hi
  have hsymbol' : g.actorSymbol? i = some symbol := by
    rw [hprogress.same]
    exact hsymbol
  have htree : g.treeComment i (g.ancestors i) = (ofTargets c s targets).treeComment i
      ((ofTargets c s targets).ancestors i) := by
    rw [hprogress.ancestors_eq, hprogress.same]
    rfl
  have hroot : i ∈ g.roots := mem_roots_iff.mpr ⟨name, hactor⟩
  obtain ⟨decl, hdecl⟩ :=
    hcomplete.exists_buildActor_of_mem_roots hv.grounded hroot o.emitTreeView
  have hcomments := leadingComments_of_buildActor hv hroot hsymbol' houter (hview ▸ hdecl)
  obtain ⟨sources, hsources, hnames⟩ := hcomplete.exists_sources hv.grounded o
  obtain ⟨tail, htail⟩ := g.exists_sourceText_eq o name decl
  rw [hcomments, htree, hv.grounded.compilation_eq] at htail
  exact ⟨sources, tail, hsources, hnames, htail ▸ hcomplete.mem_sources hsources hactor hdecl⟩

end LinkGraph

end ActorLinks
