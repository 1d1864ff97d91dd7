import ActorLinks.Proofs.Json.Reading
import ActorLinks.Proofs.Toml.Sections
import ActorLinks.Record.Format

/-! # Records read back

Either format gives back a value that it accepts, up to nulls and the order of fields. A record does
not depend on either, so it is decoded from what comes back of the value that it is encoded as.
-/
namespace ActorLinks.Record

namespace Format

/-- The values that a format gives back. -/
def Accepts : Format → Value → Prop
  | toml => Toml.IsRegular
  | json => Json.IsPlain

def nesting : Format → Value → Nat
  | toml => Toml.nesting
  | json => Json.nesting

def depthLimit : Format → Nat
  | toml => Toml.depthLimit
  | json => Json.depthLimit

/-- What a value is read back as. -/
def restored : Format → Value → Value
  | toml => Toml.arranged
  | json => fun v => v

def restoredFields : Format → List (String × Value) → List (String × Value)
  | toml, fields => (fields.filter fun e => Toml.isInline e.2) ++ Toml.arrangedSections fields
  | json, fields => fields

/-- What a field is read back as, if it is written at all. -/
def kept? : Format → Value → Option Value
  | toml, v => if Toml.isNull v then none else some (Toml.arranged v)
  | json, v => some v

variable {f : Format}

theorem read?_of_write? {v : Value} {text : String} (h : f.Accepts v)
    (hnesting : f.nesting v ≤ f.depthLimit) (hwrite : f.write? v = some text) :
    f.read? text = some (f.restored v) := by
  cases f with
  | toml => exact Toml.read?_of_write? h hnesting hwrite
  | json =>
    obtain rfl := Option.some.inj hwrite
    exact Json.read?_pretty h hnesting

section Accepted

theorem accepts_null : f.Accepts .null := by
  cases f with
  | toml => exact .null
  | json => exact .null

theorem accepts_bool (b : Bool) : f.Accepts (.bool b) := by
  cases f with
  | toml => exact .flat (.bool b)
  | json => exact .bool b

theorem accepts_text (s : String) : f.Accepts (.text s) := by
  cases f with
  | toml => exact .flat (.text s)
  | json => exact .text s

theorem accepts_texts (ss : List String) : f.Accepts (.list (ss.map .text)) := by
  cases f with
  | toml => exact .flat (.texts ss)
  | json =>
    refine .list fun v hv => ?_
    obtain ⟨s, _, rfl⟩ := List.mem_map.mp hv
    exact .text s

theorem accepts_table {fields : List (String × Value)} (hnodup : (fields.map Prod.fst).Nodup)
    (h : ∀ e ∈ fields, f.Accepts e.2) : f.Accepts (.table fields) := by
  cases f with
  | toml => exact .table hnodup h
  | json => exact .table h

theorem accepts_tables {items : List Value} (htable : ∀ v ∈ items, Toml.isTable v = true)
    (h : ∀ v ∈ items, f.Accepts v) : f.Accepts (.list items) := by
  by_cases hnil : items = []
  · subst hnil
    exact accepts_texts []
  · cases f with
    | toml => exact .tables hnil htable h
    | json => exact .list h

theorem Accepts.field {fields : List (String × Value)} (h : f.Accepts (.table fields))
    {e : String × Value} (he : e ∈ fields) : f.Accepts e.2 := by
  cases f with
  | toml =>
    cases h with
    | flat h => cases h
    | table _ h => exact h e he
  | json =>
    cases h with
    | table h => exact h e he

end Accepted

section Restoring
variable {fields : List (String × Value)}

theorem restored_table : f.restored (.table fields) = .table (f.restoredFields fields) := by
  cases f with
  | toml => rw [restored, Toml.arranged, restoredFields]
  | json => rfl

theorem restored_list (items : List Value) :
    f.restored (.list items) = .list (items.map f.restored) := by
  cases f with
  | toml =>
    have hitems : Toml.arrangedItems items = items.map Toml.arranged := by
      induction items with
      | nil => rfl
      | cons v vs ih => rw [Toml.arrangedItems, ih, List.map_cons]
    rw [restored, Toml.arranged, hitems]
  | json => rw [restored, List.map_id']

@[simp]
theorem restored_bool (b : Bool) : f.restored (.bool b) = .bool b := by
  cases f <;> rfl

@[simp]
theorem restored_text (s : String) : f.restored (.text s) = .text s := by
  cases f <;> rfl

theorem arrangedSections_eq (fields : List (String × Value)) : Toml.arrangedSections fields
    = (fields.filter fun e => !(Toml.isInline e.2 || Toml.isNull e.2)).map fun e =>
        (e.1, Toml.arranged e.2) := by
  induction fields with
  | nil => rfl
  | cons e fields ih =>
    rw [Toml.arrangedSections, ih]
    cases h : Toml.isInline e.2 || Toml.isNull e.2 with
    | true => rw [if_pos rfl, List.filter_cons_of_neg (by simp [h])]
    | false => rw [if_neg (by simp), List.filter_cons_of_pos (by simp [h]), List.map_cons]

/-- A name that occurs once is looked up among the chosen fields as among all. -/
theorem lookup_filter (hnodup : (fields.map Prod.fst).Nodup) (p : Value → Bool) (name : String) :
    (fields.filter fun e => p e.2).lookup name = (fields.lookup name).filter p := by
  induction fields with
  | nil => rfl
  | cons e fields ih =>
    obtain ⟨key, v⟩ := e
    obtain ⟨hkey, hfields⟩ := List.nodup_cons.mp hnodup
    by_cases hname : name = key
    · subst hname
      have hnone : (fields.filter fun e => p e.2).lookup name = none := by
        refine List.lookup_eq_none_iff.mpr fun e he => bne_iff_ne.mpr fun heq => hkey ?_
        exact List.mem_map.mpr ⟨e, List.mem_of_mem_filter he, heq.symm⟩
      cases hp : p v with
      | true => simp [hp, Option.filter]
      | false => simp [hp, hnone, Option.filter]
    · have hne : (name == key) = false := beq_false_of_ne hname
      cases hp : p v with
      | true => simp [List.lookup_cons, hp, hne, ih hfields]
      | false => simp [List.lookup_cons, hp, hne, ih hfields]

theorem lookup_map (g : Value → Value) (name : String) :
    (fields.map fun e => (e.1, g e.2)).lookup name = (fields.lookup name).map g := by
  induction fields with
  | nil => rfl
  | cons e fields ih =>
    obtain ⟨key, v⟩ := e
    cases hname : name == key <;> simp [List.lookup_cons, hname, ih]

theorem lookup_restoredFields (hnodup : (fields.map Prod.fst).Nodup)
    (h : f.Accepts (.table fields)) (name : String) :
    (f.restoredFields fields).lookup name = (fields.lookup name).bind f.kept? := by
  cases f with
  | json =>
    rw [restoredFields]
    cases fields.lookup name <;> rfl
  | toml =>
    rw [restoredFields, arrangedSections_eq, List.lookup_append, lookup_map,
      lookup_filter hnodup,
      lookup_filter hnodup (fun v => !(Toml.isInline v || Toml.isNull v))]
    cases hv : fields.lookup name with
    | none => rfl
    | some v =>
      have hmem : (name, v) ∈ fields := by
        obtain ⟨l₁, l₂, rfl, _⟩ := List.lookup_eq_some_iff.mp hv
        simp
      have hregular : Toml.IsRegular v := h.field hmem
      cases hinline : Toml.isInline v with
      | true =>
        have hsame := Toml.arranged_of_flat (Toml.isFlat_of_inline hregular hinline)
        simp [kept?, Option.filter, hinline, Toml.isNull_of_inline hinline, hsame]
      | false => cases hnull : Toml.isNull v <;> simp [kept?, Option.filter, hinline, hnull]

/-- Tables keep their order. -/
theorem restoredFields_of_tables (h : ∀ e ∈ fields, Toml.isTable e.2 = true) :
    f.restoredFields fields = fields.map fun e => (e.1, f.restored e.2) := by
  cases f with
  | json => simp [restoredFields, restored]
  | toml =>
    have hkind : ∀ e ∈ fields, Toml.isInline e.2 = false ∧ Toml.isNull e.2 = false := by
      intro e he
      have htable := h e he
      cases hv : e.2 with
      | table fields => exact ⟨rfl, rfl⟩
      | _ => simp [hv, Toml.isTable] at htable
    have hnone : (fields.filter fun e => Toml.isInline e.2) = [] :=
      List.filter_eq_nil_iff.mpr fun e he => by simp [(hkind e he).1]
    have hall : (fields.filter fun e => !(Toml.isInline e.2 || Toml.isNull e.2)) = fields :=
      List.filter_eq_self.mpr fun e he => by simp [hkind e he]
    rw [restoredFields, arrangedSections_eq, hnone, hall, List.nil_append]
    rfl

theorem nodup_restoredFields (hnodup : (fields.map Prod.fst).Nodup) :
    ((f.restoredFields fields).map Prod.fst).Nodup := by
  cases f with
  | json => exact hnodup
  | toml =>
    rw [restoredFields, arrangedSections_eq, List.map_append, List.map_map]
    have hkeys (p : String × Value → Bool) : ((fields.filter p).map Prod.fst).Nodup :=
      hnodup.sublist (List.filter_sublist.map _)
    refine List.nodup_append.mpr ⟨hkeys _, hkeys _, fun name hname name' hname' heq => ?_⟩
    obtain ⟨e, he, rfl⟩ := List.mem_map.mp hname
    obtain ⟨e', he', rfl⟩ := List.mem_map.mp hname'
    obtain ⟨hmem, hinline⟩ := List.mem_filter.mp he
    obtain ⟨hmem', hother⟩ := List.mem_filter.mp he'
    obtain rfl := List.inj_on_of_nodup_map hnodup hmem hmem' heq
    simp [hinline] at hother

end Restoring

end Format

/-- The fields that are found in what comes back of a table. -/
def storedFields (f : Format) (fields : List (String × Value)) : Fields :=
  ⟨f.reading, false, fun name => (fields.lookup name).bind f.kept?⟩

/-- A type of which every value is encoded as a table. -/
class IsTabular (α : Type) [Record α] : Prop where
  isTable (a : α) : Toml.isTable (encode a) = true

/-- A type of which both formats accept every value. -/
class IsAccepted (α : Type) [Record α] : Prop where
  accepts (f : Format) (a : α) : f.Accepts (encode a)

/-- A type of which every value, if it is accepted, is decoded from what comes back of it. -/
class IsRestored (α : Type) [Record α] : Prop where
  ne_null (a : α) : Toml.isNull (encode a) = false
  decode_restored (f : Format) (a : α) : f.Accepts (encode a) →
    decode f.reading (f.restored (encode a)) = some a

/-- A record is read from the text that it is written as. -/
theorem Format.parse_of_write? {α : Type} [Record α] [IsRestored α] {f : Format} {a : α}
    {text : String} (h : f.Accepts (encode a)) (hnesting : f.nesting (encode a) ≤ f.depthLimit)
    (hwrite : f.write? (encode a) = some text) : f.parse text = .ok a := by
  rw [parse, read?_of_write? h hnesting hwrite, Option.bind_some, IsRestored.decode_restored f a h]

section Fields
variable {f : Format} {fields : List (String × Value)} {α : Type} [Record α] {name : String}

theorem fields?_restored (hnodup : (fields.map Prod.fst).Nodup) (h : f.Accepts (.table fields))
    (names : List String) :
    f.reading.fields? names (f.restored (.table fields)) = some (storedFields f fields) := by
  have honce : (names.all fun n => decide
      (((f.restoredFields fields).filter fun e => e.1 == n).length ≤ 1)) = true := by
    refine List.all_eq_true.mpr fun n _ => decide_eq_true ?_
    have hcount := List.nodup_iff_count_le_one.mp (Format.nodup_restoredFields (f := f) hnodup) n
    rwa [List.count, List.countP_map, List.countP_eq_length_filter] at hcount
  rw [Format.restored_table, Reading.fields?, if_pos honce, storedFields]
  simp only [Format.lookup_restoredFields hnodup h]

theorem Accepts.of_lookup (h : f.Accepts (.table fields)) {v : Value}
    (hv : fields.lookup name = some v) : f.Accepts v := by
  obtain ⟨l₁, l₂, rfl, _⟩ := List.lookup_eq_some_iff.mp hv
  exact h.field (e := (name, v)) (by simp)

theorem get?_stored [IsRestored α] {a : α} (ha : fields.lookup name = some (encode a)) :
    (storedFields f fields).get? name = some (f.restored (encode a)) := by
  show (fields.lookup name).bind f.kept? = _
  rw [ha, Option.bind_some]
  cases f with
  | toml => rw [Format.kept?, IsRestored.ne_null, if_neg Bool.false_ne_true]; rfl
  | json => rfl

theorem required_stored [IsRestored α] (h : f.Accepts (.table fields)) {a : α}
    (ha : fields.lookup name = some (encode a)) :
    (storedFields f fields).required name = some a := by
  rw [Fields.required, get?_stored ha, Option.bind_some]
  exact IsRestored.decode_restored f a (Accepts.of_lookup h ha)

theorem defaulted_stored [IsRestored α] (h : f.Accepts (.table fields)) {a : α}
    (ha : fields.lookup name = some (encode a)) (default : α) :
    (storedFields f fields).defaulted default name = some a := by
  rw [Fields.defaulted, get?_stored ha]
  exact IsRestored.decode_restored f a (Accepts.of_lookup h ha)

theorem isNull_restored (v : Value) : Toml.isNull (f.restored v) = Toml.isNull v := by
  cases f with
  | toml => cases v <;> simp [Format.restored, Toml.arranged, Toml.isNull]
  | json => rfl

theorem decode_option {r : Reading} {v : Value} (h : Toml.isNull v = false) :
    decode r v = (decode r v : Option α).map some := by
  cases v with
  | null => cases h
  | _ => rfl

/-- What may be absent is absent again, whether or not a null was kept in its place. -/
theorem defaulted_none_stored [IsRestored α] (h : f.Accepts (.table fields)) {o : Option α}
    (ho : fields.lookup name = some (encode o)) :
    (storedFields f fields).defaulted none name = some o := by
  cases o with
  | none =>
    have hget : (storedFields f fields).get? name = f.kept? .null := by
      show (fields.lookup name).bind f.kept? = _
      rw [ho]
      rfl
    rw [Fields.defaulted, hget]
    cases f <;> rfl
  | some a =>
    have ha : fields.lookup name = some (encode a) := ho
    have hnull : Toml.isNull (f.restored (encode a)) = false := by
      rw [isNull_restored, IsRestored.ne_null]
    have hdecode := IsRestored.decode_restored f a (Accepts.of_lookup h ha)
    rw [Fields.defaulted, get?_stored ha]
    simp only
    rw [decode_option hnull]
    exact congrArg (Option.map some) hdecode

end Fields

section Instances
variable {α : Type} [Record α]

instance : IsAccepted String := ⟨fun _ s => Format.accepts_text s⟩

instance : IsRestored String where
  ne_null _ := rfl
  decode_restored f s _ := by
    show decode f.reading (f.restored (.text s)) = some s
    rw [Format.restored_text]
    rfl

instance : IsAccepted Bool := ⟨fun _ b => Format.accepts_bool b⟩

instance : IsRestored Bool where
  ne_null _ := rfl
  decode_restored f b _ := by
    show decode f.reading (f.restored (.bool b)) = some b
    rw [Format.restored_bool]
    rfl

instance [IsAccepted α] : IsAccepted (Option α) where
  accepts f
    | none => Format.accepts_null
    | some a => IsAccepted.accepts f a

instance : IsAccepted (List String) := ⟨fun _ ss => Format.accepts_texts ss⟩

instance [IsTabular α] [IsAccepted α] : IsAccepted (List α) where
  accepts f items := by
    refine Format.accepts_tables (fun v hv => ?_) fun v hv => ?_
    · obtain ⟨a, _, rfl⟩ := List.mem_map.mp hv
      exact IsTabular.isTable a
    · obtain ⟨a, _, rfl⟩ := List.mem_map.mp hv
      exact IsAccepted.accepts f a

theorem decodeList_restored {f : Format} [IsAccepted α] [IsRestored α] (items : List α) :
    decodeList f.reading ((items.map encode).map f.restored) = some items := by
  induction items with
  | nil => rfl
  | cons a items ih =>
    rw [List.map_cons, List.map_cons, decodeList,
      IsRestored.decode_restored f a (IsAccepted.accepts f a), ih]
    rfl

instance [IsAccepted α] [IsRestored α] : IsRestored (List α) where
  ne_null _ := rfl
  decode_restored f items _ := by
    show decode f.reading (f.restored (.list (items.map encode))) = some items
    rw [Format.restored_list]
    exact decodeList_restored items

/-- A word among those of a choice is read back as the item that it names. -/
theorem choice?_restored {f : Format} {β : Type} {word : β → String} {all : List β} {a : β}
    (h : all.find? (fun b => word b == word a) = some a) :
    f.reading.choice? word all (f.restored (.text (word a))) = some a := by
  rw [Format.restored_text]
  exact h

end Instances

end ActorLinks.Record
