import ActorLinks.Manifest
import ActorLinks.Proofs.Record.Restored

/-! # Manifests read back

Every part of a manifest is accepted by both formats and is decoded from what comes back of it, so
that a manifest that was written is read again.
-/
namespace ActorLinks

open Record

section Kinds

instance : IsAccepted TypeKind := ⟨fun _ _ => Format.accepts_text _⟩

instance : IsRestored TypeKind where
  ne_null _ := rfl
  decode_restored f k _ := by
    show f.reading.choice? _ TypeKind.all (f.restored (.text _)) = some k
    exact choice?_restored (by cases k <;> rfl)

instance : IsAccepted Assembly := ⟨fun _ _ => Format.accepts_text _⟩

instance : IsRestored Assembly where
  ne_null _ := rfl
  decode_restored f a _ := by
    show f.reading.choice? _ Assembly.all (f.restored (.text _)) = some a
    exact choice?_restored (by cases a <;> rfl)

end Kinds

namespace Constant
variable {f : Format}

instance : IsTabular Constant where
  isTable c := by cases c <;> rfl

theorem toValues_eq (cs : List Constant) : toValues cs = cs.map encode := by
  induction cs with
  | nil => rfl
  | cons c cs ih => rw [toValues, ih]; rfl

theorem isTable_of_mem_toValues {cs : List Constant} {v : Value} (hv : v ∈ toValues cs) :
    Toml.isTable v = true := by
  rw [toValues_eq] at hv
  obtain ⟨c, _, rfl⟩ := List.mem_map.mp hv
  exact IsTabular.isTable c

mutual

theorem accepts_toValue : (c : Constant) → f.Accepts c.toValue
  | primitive s | enumeration s | type s => by
    refine Format.accepts_table (by simp) ?_
    simpa using ⟨Format.accepts_text _, Format.accepts_text s⟩
  | bool b => by
    refine Format.accepts_table (by simp) ?_
    simpa using ⟨Format.accepts_text _, Format.accepts_bool b⟩
  | array items => by
    refine Format.accepts_table (by simp) ?_
    simpa using ⟨Format.accepts_text _, Format.accepts_tables
      (fun v hv => isTable_of_mem_toValues hv) (accepts_toValues items)⟩
  | error => by
    refine Format.accepts_table (by simp) ?_
    simpa using Format.accepts_text _

theorem accepts_toValues : (cs : List Constant) → ∀ v ∈ toValues cs, f.Accepts v
  | [] => by simp [toValues]
  | c :: cs => by
    simpa [toValues] using ⟨accepts_toValue c, accepts_toValues cs⟩

end

instance : IsAccepted Constant := ⟨fun _ c => accepts_toValue c⟩

/-- The kind of a constant stays ahead of its value. -/
theorem restored_content {content : Value} (kind : String) (h : f.Accepts content)
    (hnull : Toml.isNull content = false) :
    f.restored (.table [("kind", .text kind), ("value", content)])
      = .table [("kind", .text kind), ("value", f.restored content)] := by
  cases f with
  | json => rfl
  | toml =>
    have hkind : Toml.isInline (.text kind) = true := rfl
    cases hinline : Toml.isInline content with
    | true =>
      have hsame := Toml.arranged_of_flat (Toml.isFlat_of_inline h hinline)
      simp [Format.restored, Toml.arranged, Toml.arrangedSections, hkind, hinline, hsame]
    | false =>
      simp [Format.restored, Toml.arranged, Toml.arrangedSections, hkind, hinline, hnull]

theorem ofValue?_content (r : Reading) (kind : String) (v : Value) :
    ofValue? r (.table [("kind", .text kind), ("value", v)])
      = ofContent? kind (some ⟨v, itemsOf? r v⟩) := by
  rw [ofValue?]
  simp [kinds, contents?, Reading.word?]

mutual

theorem ofValue?_restored : (c : Constant) → ofValue? f.reading (f.restored c.toValue) = some c
  | primitive s | enumeration s | type s => by
    rw [toValue, restored_content _ (Format.accepts_text s) rfl, Format.restored_text,
      ofValue?_content]
    rfl
  | bool b => by
    rw [toValue, restored_content _ (Format.accepts_bool b) rfl, Format.restored_bool,
      ofValue?_content]
    rfl
  | array items => by
    have haccepts : f.Accepts (.list (toValues items)) := Format.accepts_tables
      (fun v hv => isTable_of_mem_toValues hv) (accepts_toValues items)
    rw [toValue, restored_content _ haccepts rfl, Format.restored_list, ofValue?_content,
      itemsOf?, ofValues?_restored items]
    rfl
  | error => by
    cases f <;> rfl

theorem ofValues?_restored :
    (cs : List Constant) → ofValues? f.reading ((toValues cs).map f.restored) = some cs
  | [] => rfl
  | c :: cs => by
    rw [toValues, List.map_cons, ofValues?, ofValue?_restored c, ofValues?_restored cs]
    rfl

end

instance : IsRestored Constant where
  ne_null c := by cases c <;> rfl
  decode_restored _ c _ := ofValue?_restored c

end Constant

namespace Attribute

theorem isTable_entries (d : Dict Constant) :
    ∀ e ∈ d.entries.map fun e => (e.1, encode e.2), Toml.isTable e.2 = true := by
  intro e he
  obtain ⟨e, _, rfl⟩ := List.mem_map.mp he
  exact IsTabular.isTable e.2

instance : IsAccepted (Dict Constant) where
  accepts f d := by
    have hkeys : (d.entries.map Prod.fst).Nodup := by
      refine d.ascending.imp fun hlt => ?_
      rintro rfl
      exact Std.lt_irrefl hlt
    refine Format.accepts_table ?_ fun e he => ?_
    · rw [List.map_map]
      exact hkeys
    · obtain ⟨e, _, rfl⟩ := List.mem_map.mp he
      exact IsAccepted.accepts f e.2

theorem decodeNamed_restored {f : Format} (es : List (String × Constant)) :
    decodeNamed f.reading (es.map fun e => (e.1, f.restored (encode e.2))) = some es := by
  induction es with
  | nil => rfl
  | cons e es ih =>
    rw [List.map_cons, decodeNamed,
      IsRestored.decode_restored f e.2 (IsAccepted.accepts f e.2), ih]
    rfl

instance : IsRestored (Dict Constant) where
  ne_null _ := rfl
  decode_restored f d _ := by
    show decode f.reading (f.restored (.table (d.entries.map fun e => (e.1, encode e.2)))) = some d
    rw [Format.restored_table, Format.restoredFields_of_tables (isTable_entries d), List.map_map]
    show (decodeNamed f.reading (d.entries.map fun e => (e.1, f.restored (encode e.2)))).map
      Dict.ofList = some d
    rw [decodeNamed_restored, Option.map_some, Dict.ofList_entries]

instance : IsTabular Attribute := ⟨fun _ => rfl⟩

instance : IsAccepted Attribute where
  accepts f a := by
    refine Format.accepts_table (by simp) ?_
    simp [IsAccepted.accepts]

instance : IsRestored Attribute where
  ne_null _ := rfl
  decode_restored f a h := by
    show (f.reading.fields? _ (f.restored (.table _))).bind _ = _
    rw [fields?_restored (by simp) h, Option.bind_some]
    rw [required_stored h rfl, defaulted_stored h rfl, defaulted_stored h rfl,
      defaulted_stored h rfl]
    rfl

end Attribute

namespace Symbol

instance : IsTabular Property := ⟨fun _ => rfl⟩

instance : IsAccepted Property where
  accepts f p := by
    refine Format.accepts_table (by simp) ?_
    simp [IsAccepted.accepts]

instance : IsRestored Property where
  ne_null _ := rfl
  decode_restored f p h := by
    show (f.reading.fields? _ (f.restored (.table _))).bind _ = _
    rw [fields?_restored (by simp) h, Option.bind_some]
    rw [required_stored h rfl, required_stored h rfl, defaulted_stored h rfl,
      defaulted_none_stored h rfl, defaulted_stored h rfl]
    rfl

instance : IsTabular Parameter := ⟨fun _ => rfl⟩

instance : IsAccepted Parameter where
  accepts f p := by
    refine Format.accepts_table (by simp) ?_
    simp [IsAccepted.accepts]

instance : IsRestored Parameter where
  ne_null _ := rfl
  decode_restored f p h := by
    show (f.reading.fields? _ (f.restored (.table _))).bind _ = _
    rw [fields?_restored (by simp) h, Option.bind_some]
    rw [required_stored h rfl, required_stored h rfl, defaulted_none_stored h rfl]
    rfl

instance : IsTabular Constructor := ⟨fun _ => rfl⟩

instance : IsAccepted Constructor where
  accepts f c := by
    refine Format.accepts_table (by simp) ?_
    simp [IsAccepted.accepts]

instance : IsRestored Constructor where
  ne_null _ := rfl
  decode_restored f c h := by
    show (f.reading.fields? _ (f.restored (.table _))).bind _ = _
    rw [fields?_restored (by simp) h, Option.bind_some]
    rw [defaulted_stored h rfl]
    rfl

instance : IsTabular Field := ⟨fun _ => rfl⟩

instance : IsAccepted Field where
  accepts f d := by
    refine Format.accepts_table (by simp) ?_
    simp [IsAccepted.accepts]

instance : IsRestored Field where
  ne_null _ := rfl
  decode_restored f d h := by
    show (f.reading.fields? _ (f.restored (.table _))).bind _ = _
    rw [fields?_restored (by simp) h, Option.bind_some]
    rw [required_stored h rfl, defaulted_stored h rfl]
    rfl

end Symbol

instance : IsTabular TypeSymbol := ⟨fun _ => rfl⟩

instance : IsAccepted TypeSymbol where
  accepts f t := by
    refine Format.accepts_table (by simp) ?_
    simp [IsAccepted.accepts]

instance : IsRestored TypeSymbol where
  ne_null _ := rfl
  decode_restored f t h := by
    show (f.reading.fields? _ (f.restored (.table _))).bind _ = _
    rw [fields?_restored (by simp) h, Option.bind_some]
    rw [required_stored h rfl, defaulted_stored h rfl, defaulted_stored h rfl,
      defaulted_stored h rfl, defaulted_none_stored h rfl, defaulted_stored h rfl,
      defaulted_none_stored h rfl, defaulted_stored h rfl, defaulted_stored h rfl,
      defaulted_stored h rfl, defaulted_stored h rfl]
    rfl

instance : IsTabular Target := ⟨fun _ => rfl⟩

instance : IsAccepted Target where
  accepts f t := by
    refine Format.accepts_table (by simp) ?_
    simp [IsAccepted.accepts]

instance : IsRestored Target where
  ne_null _ := rfl
  decode_restored f t h := by
    show (f.reading.fields? _ (f.restored (.table _))).bind _ = _
    rw [fields?_restored (by simp) h, Option.bind_some]
    rw [required_stored h rfl, required_stored h rfl, required_stored h rfl,
      required_stored h rfl, defaulted_stored h rfl, defaulted_none_stored h rfl,
      defaulted_none_stored h rfl]
    rfl

namespace Schematic.Entry
variable {f : Format}

instance : IsTabular Entry where
  isTable e := by cases e; rfl

theorem toValues_eq (es : List Entry) : toValues es = es.map encode := by
  induction es with
  | nil => rfl
  | cons e es ih => rw [toValues, ih]; rfl

theorem isTable_of_mem_toValues {es : List Entry} {v : Value} (hv : v ∈ toValues es) :
    Toml.isTable v = true := by
  rw [toValues_eq] at hv
  obtain ⟨e, _, rfl⟩ := List.mem_map.mp hv
  exact IsTabular.isTable e

mutual

theorem accepts_toValue : (e : Entry) → f.Accepts e.toValue
  | ⟨symbol, parameters, clauses, children⟩ => by
    have hchildren : f.Accepts (.list (toValues children)) := Format.accepts_tables
      (fun v hv => isTable_of_mem_toValues hv) (accepts_toValues children)
    refine Format.accepts_table (by simp) ?_
    simp [IsAccepted.accepts, hchildren]

theorem accepts_toValues : (es : List Entry) → ∀ v ∈ toValues es, f.Accepts v
  | [] => by simp [toValues]
  | e :: es => by
    simpa [toValues] using ⟨accepts_toValue e, accepts_toValues es⟩

end

instance : IsAccepted Entry := ⟨fun _ e => accepts_toValue e⟩

/-- The children are looked for like any other field. -/
theorem childrenIn?_eq (r : Reading) (fields : List (String × Value)) :
    childrenIn? r fields = (fields.lookup "children").elim (some []) (itemsOf? r) := by
  induction fields with
  | nil => rfl
  | cons e fields ih =>
    obtain ⟨name, v⟩ := e
    rw [childrenIn?, List.lookup_cons, ih]
    by_cases hname : name = "children"
    · subst hname
      rfl
    · have hne : ("children" == name) = false := beq_false_of_ne fun h => hname h.symm
      rw [if_neg hname, hne]

mutual

theorem ofValue?_restored : (e : Entry) → ofValue? f.reading (f.restored e.toValue) = some e
  | ⟨symbol, parameters, clauses, children⟩ => by
    have haccepts := accepts_toValue (f := f) ⟨symbol, parameters, clauses, children⟩
    rw [toValue] at haccepts ⊢
    generalize hfields : [("symbol", encode symbol), ("type_parameters", encode parameters),
      ("constraint_clauses", encode clauses), ("children", .list (toValues children))] = fields
      at haccepts ⊢
    have hnodup : (fields.map Prod.fst).Nodup := by simp [← hfields]
    have hwithout : withoutChildren? f.reading (f.restored (.table fields))
        = some ⟨symbol, parameters, clauses, []⟩ := by
      rw [withoutChildren?, fields?_restored hnodup haccepts]
      subst hfields
      rw [Option.bind_eq_bind, Option.bind_some, required_stored haccepts rfl,
        defaulted_stored haccepts rfl, defaulted_stored haccepts rfl]
      rfl
    have hchildren : childrenIn? f.reading (f.restoredFields fields) = some children := by
      rw [childrenIn?_eq, Format.lookup_restoredFields hnodup haccepts]
      subst hfields
      have hkept : f.kept? (.list (toValues children))
          = some (f.restored (.list (toValues children))) := by cases f <;> rfl
      show ((f.kept? (.list (toValues children))).elim (some []) (itemsOf? f.reading)) = _
      rw [hkept, Format.restored_list]
      exact ofValues?_restored children
    rw [Format.restored_table] at hwithout ⊢
    rw [ofValue?, hwithout, Option.bind_eq_bind, Option.bind_some, hchildren]
    rfl

theorem ofValues?_restored :
    (es : List Entry) → ofValues? f.reading ((toValues es).map f.restored) = some es
  | [] => rfl
  | e :: es => by
    rw [toValues, List.map_cons, ofValues?, ofValue?_restored e, ofValues?_restored es]
    rfl

end

instance : IsRestored Entry where
  ne_null e := by cases e; rfl
  decode_restored _ e _ := ofValue?_restored e

end Schematic.Entry

instance : IsAccepted Schematic where
  accepts f s := by
    refine Format.accepts_table (by simp) ?_
    simp [IsAccepted.accepts]

instance : IsRestored Schematic where
  ne_null _ := rfl
  decode_restored f s h := by
    show (f.reading.fields? _ (f.restored (.table _))).bind _ = _
    rw [fields?_restored (by simp) h, Option.bind_some]
    rw [required_stored h rfl]
    rfl

namespace Manifest

instance : IsAccepted Manifest where
  accepts f m := by
    refine Format.accepts_table (by simp) ?_
    simp [IsAccepted.accepts]

instance : IsRestored Manifest where
  ne_null _ := rfl
  decode_restored f m h := by
    show (f.reading.fields? _ (f.restored (.table _))).bind _ = _
    rw [fields?_restored (by simp) h, Option.bind_some]
    rw [defaulted_none_stored h rfl, defaulted_stored h rfl, defaulted_stored h rfl,
      defaulted_stored h rfl]
    rfl

/-- A manifest that was written is read again, unless it is nested too deep for the reader. -/
theorem parse_text {m : Manifest} {f : Format} {text : String} (htext : m.text f = .ok text)
    (hnesting : f.nesting (encode m) ≤ f.depthLimit) : parse f text = .ok m := by
  have hwrite : f.write? (encode m) = some text := by
    rw [Manifest.text, Format.print] at htext
    split at htext
    · next hwrite =>
      cases htext
      exact hwrite
    · cases htext
  exact Format.parse_of_write? (IsAccepted.accepts f m) hnesting hwrite

/-- A manifest with something absent, something empty and something nested in most of its parts. -/
def nestedManifest : Manifest where
  schematic := ⟨⟨"Discord.ILinkType", [], [], [Schematic.linkEntry "Indexable" []]⟩⟩
  targets := [{ actor := "A", entity := "E", id := "I\n\t", model := "M", assembly := .rest }]
  types := [{
    name := "A.\"B\"", typeParameters := ["T"], attributes := [{
      className := "C", arguments := [.array [.array [], .bool true], .error]
      named := Dict.ofList [("k'", .primitive "1"), ("", .type "\\")] }] }]

theorem parse_text_sample :
    (∃ text, nestedManifest.text .toml = .ok text ∧ parse .toml text = .ok nestedManifest) ∧
      ∃ text, nestedManifest.text .json = .ok text ∧ parse .json text = .ok nestedManifest :=
  ⟨⟨_, rfl, parse_text rfl (by decide)⟩, ⟨_, rfl, parse_text rfl (by decide)⟩⟩

end Manifest

end ActorLinks
