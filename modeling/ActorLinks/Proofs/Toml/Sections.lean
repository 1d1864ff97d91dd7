import ActorLinks.Proofs.Toml.Reading
import Mathlib.Data.List.Nodup

/-! # Tables made of sections

The sections that a table is written as make the same table again, but for nulls, which are left
out, and for the order of its fields: what stands behind its key comes before what has a header.
-/
namespace ActorLinks.Toml

mutual

/-- What a value is read back as. -/
def arranged : Value → Value
  | .table fields => .table ((fields.filter fun f => isInline f.2) ++ arrangedSections fields)
  | .list items => .list (arrangedItems items)
  | v => v

/-- The fields that have headers. -/
def arrangedSections : List (String × Value) → List (String × Value)
  | [] => []
  | (name, v) :: rest =>
    if isInline v || isNull v then arrangedSections rest
    else (name, arranged v) :: arrangedSections rest

def arrangedItems : List Value → List Value
  | [] => []
  | v :: vs => arranged v :: arrangedItems vs

end

mutual

/-- How many names the longest header has. -/
def nesting : Value → Nat
  | .table fields => fieldsNesting fields
  | .list items => itemsNesting items
  | _ => 0

def fieldsNesting : List (String × Value) → Nat
  | [] => 0
  | (_, v) :: rest =>
    max (if isInline v || isNull v then 0 else nesting v + 1) (fieldsNesting rest)

def itemsNesting : List Value → Nat
  | [] => 0
  | v :: vs => max (nesting v) (itemsNesting vs)

end

/-- A value whose tables and lists of tables have headers and whose other parts stand on a line,
with no name twice in a table. -/
inductive IsRegular : Value → Prop
  | null : IsRegular .null
  | flat {v : Value} : IsFlat v → IsRegular v
  | table {fields : List (String × Value)} : (fields.map Prod.fst).Nodup →
    (∀ f ∈ fields, IsRegular f.2) → IsRegular (.table fields)
  | tables {items : List Value} : items ≠ [] → (∀ v ∈ items, isTable v = true) →
    (∀ v ∈ items, IsRegular v) → IsRegular (.list items)

section Kinds
variable {v : Value}

theorem isInline_of_flat (h : IsFlat v) : isInline v = true := by
  cases h with
  | bool b => rfl
  | int h => rfl
  | text s => rfl
  | texts ss => cases ss <;> rfl

theorem isNull_of_inline (h : isInline v = true) : isNull v = false := by
  cases v with
  | null => cases h
  | _ => rfl

theorem arranged_of_flat (h : IsFlat v) : arranged v = v := by
  have htexts (ss : List String) : arrangedItems (ss.map .text) = ss.map .text := by
    induction ss with
    | nil => rfl
    | cons s ss ih => rw [List.map_cons, arrangedItems, ih]; rfl
  cases h with
  | bool b => rfl
  | int h => rfl
  | text s => rfl
  | texts ss => rw [arranged, htexts]

theorem isFlat_of_inline (h : IsRegular v) (hv : isInline v = true) : IsFlat v := by
  cases h with
  | null => cases hv
  | flat h => exact h
  | table => cases hv
  | @tables items hne hall _ =>
    have htables : items.all isTable = true := List.all_eq_true.mpr hall
    simp [isInline, htables, hne] at hv

end Kinds

section Tables
variable {t : Table} {name other : String} {item : Item}

theorem field?_add_self (h : t.field? name = none) : (t.add name item).field? name = some item := by
  unfold Table.field? at h
  simp [Table.field?, Table.add, List.lookup_append, h]

theorem field?_add_ne (h : other ≠ name) : (t.add name item).field? other = t.field? other := by
  have hsingle : List.lookup other [(name, item)] = none :=
    List.lookup_eq_none_iff.mpr (by simpa using h)
  simp [Table.field?, Table.add, List.lookup_append, hsingle]

/-- A field that was added is the only one of its name. -/
theorem replace_add (h : t.field? name = none) (new : Item) :
    (t.add name item).replace name new = t.add name new := by
  have hkeep : t.fields.map (fun f => if f.1 == name then (name, new) else f) = t.fields := by
    refine (List.map_congr_left fun f hf => ?_).trans (List.map_id _)
    have hne : name ≠ f.1 := by simpa using List.lookup_eq_none_iff.mp h f hf
    rw [if_neg (by simpa using hne.symm)]
    rfl
  simp only [Table.replace, Table.add, List.map_append, hkeep, List.map_cons, List.map_nil,
    beq_self_eq_true, if_true]

theorem assignAll?_inlineFields {fields : List (String × Value)} (ht : t.isDotted = false)
    (hnodup : (fields.map Prod.fst).Nodup) (hnew : ∀ f ∈ fields, t.field? f.1 = none) :
    t.assignAll? (inlineFields fields) = some { t with
      fields := t.fields ++ (fields.filter fun f => isInline f.2).map fun f =>
        (f.1, .value f.2) } := by
  induction fields generalizing t with
  | nil =>
    show some t = _
    rw [List.filter_nil, List.map_nil, List.append_nil]
    cases t
    rfl
  | cons f fields ih =>
    obtain ⟨hf, hfields⟩ := List.nodup_cons.mp hnodup
    have hrest : ∀ e ∈ fields, t.field? e.1 = none :=
      fun e he => hnew e (List.mem_cons_of_mem _ he)
    -- only inline fields are assigned; they have different names, so none is there already
    cases hinline : isInline f.2 with
    | false =>
      have hsame : inlineFields (f :: fields) = inlineFields fields := by
        simp [inlineFields, hinline]
      rw [hsame, ih ht hfields hrest, List.filter_cons_of_neg (by simp [hinline])]
    | true =>
      have hmore : inlineFields (f :: fields) = ⟨⟨[], f.1⟩, f.2⟩ :: inlineFields fields := by
        simp [inlineFields, hinline]
      have hassign : t.assign? ⟨⟨[], f.1⟩, f.2⟩ = some (t.add f.1 (.value f.2)) := by
        simp [Table.assign?, Table.within?, ht, hnew f List.mem_cons_self]
      rw [hmore, List.filter_cons_of_pos (by simp [hinline]), Table.assignAll?, List.foldlM_cons,
        hassign]
      refine (ih (t := t.add f.1 (.value f.2)) ht hfields fun e he => ?_).trans ?_
      · have hne : e.1 ≠ f.1 := fun heq => hf (heq ▸ List.mem_map_of_mem he)
        rw [field?_add_ne hne, hrest e he]
      · simp [Table.add]

end Tables

section Prefixes
variable {t s : Table} {name : String} {ss : List Section}

/-- The section one table further down. -/
def Section.under (name : String) (s : Section) : Section :=
  { s with path := ⟨name :: s.path.parents, s.path.name⟩ }

mutual

theorem fieldSections_under (name : String) (parents : List String) (key : String) :
    (v : Value) → fieldSections (name :: parents) key v
      = (fieldSections parents key v).map (.under name)
  | .table fields => by
    have hheader : headerOf ⟨name :: parents, key⟩ fields
        = (headerOf ⟨parents, key⟩ fields).map (.under name) := by
      unfold headerOf
      simp only
      split <;> rfl
    rw [fieldSections, fieldSections, hheader, List.cons_append,
      sectionsOf_under name (parents ++ [key]) fields, List.map_append]
  | .list items => by
    rw [fieldSections, fieldSections]
    split
    · exact elementSections_under name parents key items
    · rfl
  | .null | .bool _ | .int _ | .scalar _ | .text _ | .unreadable => by
    rw [fieldSections, fieldSections] <;> simp

theorem sectionsOf_under (name : String) (parents : List String) :
    (fields : List (String × Value)) → sectionsOf (name :: parents) fields
      = (sectionsOf parents fields).map (.under name)
  | [] => rfl
  | (key, v) :: rest => by
    rw [sectionsOf, sectionsOf, fieldSections_under name parents key v,
      sectionsOf_under name parents rest, List.map_append]

theorem elementSections_under (name : String) (parents : List String) (key : String) :
    (items : List Value) → elementSections (name :: parents) key items
      = (elementSections parents key items).map (.under name)
  | [] => rfl
  | .table fields :: rest => by
    rw [elementSections, elementSections, @List.cons_append _ name parents [key],
      sectionsOf_under name (parents ++ [key]) fields, elementSections_under name parents key rest]
    simp [Section.under]
  | .list _ :: rest | .null :: rest | .bool _ :: rest | .int _ :: rest | .scalar _ :: rest
  | .text _ :: rest | .unreadable :: rest => by
    rw [elementSections, elementSections, elementSections_under name parents key rest] <;> simp

end

theorem addSection?_under_none (h : t.field? name = none) (x : Section) :
    t.addSection? (x.under name)
      = (Table.addSection? ⟨true, false, []⟩ x).map fun s => t.add name (.table s) := by
  simp only [Table.addSection?, Section.under]
  rw [Table.within?, h]
  rfl

theorem addSection?_under_table (h : t.field? name = none) (x : Section) :
    (t.add name (.table s)).addSection? (x.under name)
      = (s.addSection? x).map fun s => t.add name (.table s) := by
  simp only [Table.addSection?, Section.under]
  rw [Table.within?, field?_add_self h]
  simp only [Bool.false_and, Bool.false_eq_true, if_false, replace_add h]
  rfl

theorem addSection?_under_tables (h : t.field? name = none) (ts : List Table) (x : Section) :
    (t.add name (.tables (ts ++ [s]))).addSection? (x.under name)
      = (s.addSection? x).map fun s => t.add name (.tables (ts ++ [s])) := by
  simp only [Table.addSection?, Section.under]
  rw [Table.within?, field?_add_self h]
  simp only [List.getLast?_concat, List.dropLast_concat, Option.bind_some, replace_add h]
  rfl

/-- Sections below a table that is there change that table. -/
theorem foldlM_under_table (h : t.field? name = none) :
    (ss.map (.under name)).foldlM Table.addSection? (t.add name (.table s))
      = (ss.foldlM Table.addSection? s).map fun s => t.add name (.table s) := by
  induction ss generalizing s with
  | nil => rfl
  | cons x ss ih =>
    rw [List.map_cons, List.foldlM_cons, List.foldlM_cons, addSection?_under_table h]
    cases s.addSection? x with
    | none => rfl
    | some s' => exact ih

/-- Sections below a list of tables change its last one. -/
theorem foldlM_under_tables (h : t.field? name = none) (ts : List Table) :
    (ss.map (.under name)).foldlM Table.addSection? (t.add name (.tables (ts ++ [s])))
      = (ss.foldlM Table.addSection? s).map fun s => t.add name (.tables (ts ++ [s])) := by
  induction ss generalizing s with
  | nil => rfl
  | cons x ss ih =>
    rw [List.map_cons, List.foldlM_cons, List.foldlM_cons, addSection?_under_tables h]
    cases s.addSection? x with
    | none => rfl
    | some s' => exact ih

/-- A table without a header of its own is made by the first section below it. -/
theorem foldlM_under_none (h : t.field? name = none) (hne : ss ≠ []) :
    (ss.map (.under name)).foldlM Table.addSection? t
      = (ss.foldlM Table.addSection? ⟨true, false, []⟩).map fun s => t.add name (.table s) := by
  obtain ⟨x, ss, rfl⟩ := List.exists_cons_of_ne_nil hne
  rw [List.map_cons, List.foldlM_cons, List.foldlM_cons, addSection?_under_none h]
  cases Table.addSection? ⟨true, false, []⟩ x with
  | none => rfl
  | some s' => exact foldlM_under_table h

end Prefixes

section Values
variable {t : Table} {name : String} {v : Value} {fields : List (String × Value)}

theorem fieldValues_append (xs ys : List (String × Item)) :
    Table.fieldValues (xs ++ ys) = Table.fieldValues xs ++ Table.fieldValues ys := by
  induction xs with
  | nil => rfl
  | cons x xs ih =>
    rw [List.cons_append, Table.fieldValues, Table.fieldValues, ih, List.cons_append]

theorem fieldValues_values (fields : List (String × Value)) :
    Table.fieldValues (fields.map fun f => (f.1, Item.value f.2)) = fields := by
  induction fields with
  | nil => rfl
  | cons f fields ih => rw [List.map_cons, Table.fieldValues, ih, Table.itemValue]

/-- The sections of a value make one field, from which the value can be read. -/
def Adds (name : String) (v : Value) : Prop :=
  ∀ t : Table, t.field? name = none → ∃ item,
    (fieldSections [] name v).foldlM Table.addSection? t = some (t.add name item) ∧
      Table.itemValue item = arranged v

/-- The sections of a table add its fields that have headers to those that are there. -/
def AddsAll (fields : List (String × Value)) : Prop :=
  ∀ t : Table, (∀ f ∈ fields, isInline f.2 = false → t.field? f.1 = none) → ∃ items,
    (sectionsOf [] fields).foldlM Table.addSection? t
        = some { t with fields := t.fields ++ items } ∧
      Table.fieldValues items = arrangedSections fields

theorem fieldSections_of_inline (parents : List String) (h : IsRegular v)
    (hv : isInline v = true ∨ isNull v = true) : fieldSections parents name v = [] := by
  have hflat (ss : List String) : fieldSections parents name (.list (ss.map .text)) = [] := by
    rw [fieldSections]
    cases ss <;> rfl
  cases h with
  | null => rw [fieldSections] <;> simp
  | flat h =>
    cases h with
    | texts ss => exact hflat ss
    | _ => rw [fieldSections] <;> simp
  | table => rcases hv with hv | hv <;> cases hv
  | @tables items hne hall _ =>
    have htables : items.all isTable = true := List.all_eq_true.mpr hall
    rcases hv with hv | hv
    · simp [isInline, htables, hne] at hv
    · cases hv

theorem addsAll_of_forall (hnodup : (fields.map Prod.fst).Nodup)
    (hregular : ∀ f ∈ fields, IsRegular f.2)
    (h : ∀ f ∈ fields, isInline f.2 = false → isNull f.2 = false → Adds f.1 f.2) :
    AddsAll fields := by
  induction fields with
  | nil =>
    intro t _
    refine ⟨[], ?_, rfl⟩
    show some t = _
    rw [List.append_nil]
    cases t
    rfl
  | cons f fields ih =>
    obtain ⟨hf, hfields⟩ := List.nodup_cons.mp hnodup
    have hrest := ih hfields (fun e he => hregular e (List.mem_cons_of_mem _ he))
      fun e he => h e (List.mem_cons_of_mem _ he)
    intro t ht
    have htrest : ∀ e ∈ fields, isInline e.2 = false → t.field? e.1 = none :=
      fun e he => ht e (List.mem_cons_of_mem _ he)
    obtain ⟨name, v⟩ := f
    have hsections : sectionsOf [] ((name, v) :: fields)
        = fieldSections [] name v ++ sectionsOf [] fields := rfl
    -- an inline field has no section; any other has its own, in front of those of the rest
    by_cases hv : isInline v = true ∨ isNull v = true
    · have hnone : fieldSections [] name v = [] :=
        fieldSections_of_inline [] (hregular _ List.mem_cons_self) hv
      obtain ⟨items, hitems, hvalues⟩ := hrest t htrest
      refine ⟨items, by rw [hsections, hnone, List.nil_append, hitems], ?_⟩
      rw [arrangedSections, if_pos (by simpa using hv), hvalues]
    · obtain ⟨hinline, hnull⟩ := not_or.mp hv
      rw [Bool.not_eq_true] at hinline hnull
      obtain ⟨item, hitem, hvalue⟩ := h _ List.mem_cons_self hinline hnull t
        (ht _ List.mem_cons_self hinline)
      obtain ⟨items, hitems, hvalues⟩ := hrest (t.add name item) fun e he heinline => by
        -- the names differ, so what is added here is in the way of no later field
        have hne : e.1 ≠ name := fun heq => hf (List.mem_map.mpr ⟨e, he, heq⟩)
        rw [field?_add_ne hne, htrest e he heinline]
      refine ⟨(name, item) :: items, ?_, ?_⟩
      · rw [hsections, List.foldlM_append, hitem]
        refine hitems.trans ?_
        simp [Table.add]
      · rw [arrangedSections, if_neg (by simp [hinline, hnull]), Table.fieldValues, hvalue, hvalues]

/-- The plain fields of a table, to which its sections are added. -/
theorem exists_table_of_addsAll (hnodup : (fields.map Prod.fst).Nodup) (h : AddsAll fields)
    {s : Table} (hs : s.fields = (fields.filter fun f => isInline f.2).map fun f =>
      (f.1, Item.value f.2)) :
    ∃ s', (sectionsOf [] fields).foldlM Table.addSection? s = some s' ∧
      s'.toValue = arranged (.table fields) := by
  obtain ⟨items, hitems, hvalues⟩ := h s fun f hf hinline => by
    rw [Table.field?, hs, List.lookup_eq_none_iff]
    intro e he
    obtain ⟨e', he', rfl⟩ := List.mem_map.mp he
    obtain ⟨hmem, hinline'⟩ := List.mem_filter.mp he'
    rw [bne_iff_ne]
    intro hsame
    -- two fields of one name would be one field, both behind its key and with a header
    have heq : f = e' := List.inj_on_of_nodup_map hnodup hf hmem hsame
    rw [heq, hinline'] at hinline
    cases hinline
  refine ⟨_, hitems, ?_⟩
  rw [Table.toValue, fieldValues_append, hs, fieldValues_values, hvalues, arranged]

theorem empty_assignAll? (hnodup : (fields.map Prod.fst).Nodup) :
    Table.empty.assignAll? (inlineFields fields) = some ⟨false, false,
      (fields.filter fun f => isInline f.2).map fun f => (f.1, .value f.2)⟩ :=
  assignAll?_inlineFields (t := .empty) rfl hnodup fun _ _ => rfl

theorem adds_table (hnodup : (fields.map Prod.fst).Nodup) (h : AddsAll fields)
    (hnonempty : inlineFields fields = [] → ¬ (fields.all fun f => isNull f.2) →
      sectionsOf [] fields ≠ []) : Adds name (.table fields) := by
  intro t ht
  have hunder : sectionsOf [name] fields = (sectionsOf [] fields).map (.under name) :=
    sectionsOf_under name [] fields
  rw [fieldSections, List.nil_append, hunder, headerOf]
  split
  · -- the header makes the table with its plain fields
    obtain ⟨s', hs', hvalue⟩ := exists_table_of_addsAll hnodup h
      (s := ⟨false, false, (fields.filter fun f => isInline f.2).map fun f =>
        (f.1, .value f.2)⟩) rfl
    refine ⟨.table s', ?_, hvalue⟩
    have hopen : t.addSection? ⟨⟨[], name⟩, false, inlineFields fields⟩ = some (t.add name (.table
        ⟨false, false, (fields.filter fun f => isInline f.2).map fun f => (f.1, .value f.2)⟩)) := by
      show Table.openTable? name (inlineFields fields) t = _
      rw [Table.openTable?, ht, empty_assignAll? hnodup, Option.map_some]
    rw [List.singleton_append, List.foldlM_cons, hopen]
    simp only [Option.bind_eq_bind, Option.bind_some]
    rw [foldlM_under_table ht, hs', Option.map_some]
  · next hheader =>
    -- without a header the first section below makes the table, for there is nothing else to tell
    -- of it
    obtain ⟨hinline, hnull⟩ := not_or.mp (Bool.or_eq_true _ _ ▸ hheader)
    have hnil : inlineFields fields = [] := by simpa using hinline
    have hplain : (fields.filter fun f => isInline f.2) = [] := List.map_eq_nil_iff.mp hnil
    obtain ⟨s', hs', hvalue⟩ := exists_table_of_addsAll hnodup h (s := ⟨true, false, []⟩)
      (by rw [hplain]; rfl)
    refine ⟨.table s', ?_, hvalue⟩
    rw [List.nil_append, foldlM_under_none ht (hnonempty hnil hnull), hs', Option.map_some]

/-- The fields have the names of different fields, and their sections can be added. -/
def IsElement (fields : List (String × Value)) : Prop :=
  (fields.map Prod.fst).Nodup ∧ AddsAll fields

/-- One more table of a list, which is the first one if there is no such list. -/
theorem exists_element (ht : t.field? name = none) (hfields : IsElement fields) {base : Table}
    (ts : List Table) (hbase : base = t ∧ ts = [] ∨ base = t.add name (.tables ts)) :
    ∃ s, ((⟨⟨[], name⟩, true, inlineFields fields⟩ : Section) :: sectionsOf [name] fields).foldlM
        Table.addSection? base = some (t.add name (.tables (ts ++ [s]))) ∧
      s.toValue = arranged (.table fields) := by
  obtain ⟨hnodup, hadds⟩ := hfields
  have hunder : sectionsOf [name] fields = (sectionsOf [] fields).map (.under name) :=
    sectionsOf_under name [] fields
  generalize hs : (⟨false, false, (fields.filter fun f => isInline f.2).map fun f =>
    (f.1, .value f.2)⟩ : Table) = s
  obtain ⟨s', hs', hvalue⟩ := exists_table_of_addsAll hnodup hadds (s := s) (hs ▸ rfl)
  have hassign : Table.empty.assignAll? (inlineFields fields) = some s :=
    hs ▸ empty_assignAll? hnodup
  have hopen : base.addSection? ⟨⟨[], name⟩, true, inlineFields fields⟩
      = some (t.add name (.tables (ts ++ [s]))) := by
    show Table.openElement? name (inlineFields fields) base = _
    rcases hbase with ⟨rfl, rfl⟩ | rfl
    · rw [Table.openElement?, ht, hassign]
      rfl
    · rw [Table.openElement?, field?_add_self ht, hassign]
      simp only [Option.map_some, replace_add ht]
  refine ⟨s', ?_, hvalue⟩
  rw [List.foldlM_cons, hopen, hunder]
  simp only [Option.bind_eq_bind, Option.bind_some]
  rw [foldlM_under_tables ht, hs', Option.map_some]

theorem elementSections_cons (fields : List (String × Value)) (items : List Value) :
    elementSections [] name (.table fields :: items) =
      (⟨⟨[], name⟩, true, inlineFields fields⟩ :: sectionsOf [name] fields)
        ++ elementSections [] name items := by
  rw [elementSections]
  rfl

theorem exists_elements (ht : t.field? name = none) {items : List Value} (ts : List Table)
    (h : ∀ v ∈ items, ∃ fields, v = .table fields ∧ IsElement fields) : ∃ ts',
      (elementSections [] name items).foldlM Table.addSection? (t.add name (.tables ts))
        = some (t.add name (.tables (ts ++ ts'))) ∧
      Table.tableValues ts' = arrangedItems items := by
  induction items generalizing ts with
  | nil => exact ⟨[], by rw [List.append_nil]; rfl, rfl⟩
  | cons v items ih =>
    obtain ⟨fields, rfl, hfields⟩ := h v List.mem_cons_self
    obtain ⟨s, hs, hvalue⟩ := exists_element ht hfields ts (Or.inr rfl)
    obtain ⟨ts', hts', hvalues⟩ :=
      ih (ts ++ [s]) fun v hv => h v (List.mem_cons_of_mem _ hv)
    refine ⟨s :: ts', ?_, by rw [Table.tableValues, hvalue, hvalues, arrangedItems]⟩
    rw [elementSections_cons, List.foldlM_append, hs]
    refine hts'.trans ?_
    rw [List.append_assoc, List.singleton_append]

/-- Every table of a list has a header. -/
theorem adds_tables {items : List Value} (hne : items ≠ [])
    (h : ∀ v ∈ items, ∃ fields, v = .table fields ∧ IsElement fields) :
    Adds name (.list items) := by
  intro t ht
  have htables : items.all isTable = true := List.all_eq_true.mpr fun v hv => by
    obtain ⟨fields, rfl, _⟩ := h v hv
    rfl
  obtain ⟨v, items, rfl⟩ := List.exists_cons_of_ne_nil hne
  obtain ⟨fields, rfl, hfields⟩ := h v List.mem_cons_self
  obtain ⟨s, hs, hvalue⟩ := exists_element ht hfields [] (Or.inl ⟨rfl, rfl⟩)
  obtain ⟨ts, hts, hvalues⟩ :=
    exists_elements ht [s] fun v hv => h v (List.mem_cons_of_mem _ hv)
  refine ⟨.tables (s :: ts), ?_, ?_⟩
  · rw [fieldSections, if_pos htables, elementSections_cons, List.foldlM_append, hs]
    exact hts
  · rw [Table.itemValue, Table.tableValues, hvalue, hvalues]
    rfl

theorem Adds.fieldSections_ne_nil (h : Adds name v) : fieldSections [] name v ≠ [] := by
  intro hnil
  obtain ⟨item, hitem, _⟩ := h .empty rfl
  rw [hnil] at hitem
  have hfields := congrArg Table.fields (Option.some.inj hitem)
  simp [Table.empty, Table.add] at hfields

theorem mem_sectionsOf {parents : List String} {s : Section} :
    s ∈ sectionsOf parents fields ↔ ∃ f ∈ fields, s ∈ fieldSections parents f.1 f.2 := by
  induction fields with
  | nil => simp [sectionsOf]
  | cons f fields ih =>
    rw [sectionsOf, List.mem_append, ih]
    simp

/-- Something of a table that is not null and has no place behind its key has a section. -/
theorem sectionsOf_ne_nil (hinline : inlineFields fields = [])
    (hnull : ¬ (fields.all fun f => isNull f.2))
    (h : ∀ f ∈ fields, isInline f.2 = false → isNull f.2 = false → Adds f.1 f.2) :
    sectionsOf [] fields ≠ [] := by
  have hexists : ∃ f ∈ fields, isNull f.2 = false := by
    by_contra hall
    refine hnull (List.all_eq_true.mpr fun f hf => ?_)
    cases hf' : isNull f.2 with
    | true => rfl
    | false => exact absurd ⟨f, hf, hf'⟩ hall
  obtain ⟨f, hf, hfnull⟩ := hexists
  have hplain : (fields.filter fun f => isInline f.2) = [] := List.map_eq_nil_iff.mp hinline
  have hfinline : isInline f.2 = false := by
    simpa using List.filter_eq_nil_iff.mp hplain f hf
  obtain ⟨s, hs⟩ :=
    List.exists_mem_of_ne_nil _ (h f hf hfinline hfnull).fieldSections_ne_nil
  exact List.ne_nil_of_mem (mem_sectionsOf.mpr ⟨f, hf, hs⟩)

/-- The sections of a regular value make the value again. -/
theorem IsRegular.adds (h : IsRegular v) :
    (isInline v = false → isNull v = false → ∀ name, Adds name v) ∧
      ∀ fields, v = .table fields → IsElement fields := by
  induction h with
  | null => exact ⟨fun _ hnull => (by cases hnull), fun _ hv => (by cases hv)⟩
  | flat h =>
    refine ⟨fun hinline => ?_, ?_⟩
    · rw [isInline_of_flat h] at hinline
      cases hinline
    · rintro fields rfl
      cases h
  | @table fields hnodup hregular ih =>
    have hfields : ∀ f ∈ fields, isInline f.2 = false → isNull f.2 = false → Adds f.1 f.2 :=
      fun f hf hinline hnull => (ih f hf).1 hinline hnull f.1
    have hadds : AddsAll fields := addsAll_of_forall hnodup hregular hfields
    refine ⟨fun _ _ name => ?_, ?_⟩
    · exact adds_table hnodup hadds fun hinline hnull => sectionsOf_ne_nil hinline hnull hfields
    · rintro _ ⟨⟩
      exact ⟨hnodup, hadds⟩
  | @tables items hne hall hregular ih =>
    refine ⟨fun _ _ name => adds_tables hne fun v hv => ?_, fun _ hv => (by cases hv)⟩
    have htable := hall v hv
    cases v with
    | table fields => exact ⟨fields, rfl, (ih _ hv).2 fields rfl⟩
    | _ => cases htable

/-- The document of a table makes the table again. -/
theorem toValue?_ofFields (h : IsRegular (.table fields)) :
    (Document.ofFields fields).toValue? = some (arranged (.table fields)) := by
  obtain ⟨hnodup, hadds⟩ := h.adds.2 fields rfl
  obtain ⟨s', hs', hvalue⟩ := exists_table_of_addsAll hnodup hadds
    (s := ⟨false, false, (fields.filter fun f => isInline f.2).map fun f => (f.1, .value f.2)⟩) rfl
  have htable : (Document.ofFields fields).toTable? = some s' := by
    rw [Document.toTable?, Document.ofFields]
    simp only [empty_assignAll? hnodup, Option.bind_eq_bind, Option.bind_some]
    exact hs'
  rw [Document.toValue?, htable, Option.map_some, hvalue]

end Values

section Lengths
variable {fields : List (String × Value)}

theorem isReadable_inlineFields (hregular : ∀ f ∈ fields, IsRegular f.2) :
    ∀ a ∈ inlineFields fields, IsFlat a.value ∧ a.path.length ≤ depthLimit := by
  intro a ha
  obtain ⟨f, hf, rfl⟩ := List.mem_map.mp ha
  obtain ⟨hmem, hinline⟩ := List.mem_filter.mp hf
  exact ⟨isFlat_of_inline (hregular f hmem) hinline, by show 1 ≤ depthLimit; decide⟩

theorem nesting_lt_of_mem {f : String × Value} (hf : f ∈ fields) (hinline : isInline f.2 = false)
    (hnull : isNull f.2 = false) : nesting f.2 < nesting (.table fields) := by
  show nesting f.2 < fieldsNesting fields
  induction fields with
  | nil => cases hf
  | cons e fields ih =>
    rw [fieldsNesting]
    rcases List.mem_cons.mp hf with rfl | hf
    · rw [if_neg (by simp [hinline, hnull])]
      omega
    · have hlt := ih hf
      omega

theorem nesting_le_of_mem {items : List Value} {v : Value} (hv : v ∈ items) :
    nesting v ≤ nesting (.list items) := by
  show nesting v ≤ itemsNesting items
  induction items with
  | nil => cases hv
  | cons w items ih =>
    rw [itemsNesting]
    rcases List.mem_cons.mp hv with rfl | hv
    · omega
    · have hle := ih hv
      omega

theorem exists_of_mem_elementSections {parents : List String} {name : String} {items : List Value}
    {s : Section} (hs : s ∈ elementSections parents name items) : ∃ fields, .table fields ∈ items ∧
      (s = ⟨⟨parents, name⟩, true, inlineFields fields⟩ ∨
        s ∈ sectionsOf (parents ++ [name]) fields) := by
  induction items with
  | nil => simp [elementSections] at hs
  | cons v items ih =>
    by_cases hrest : s ∈ elementSections parents name items
    · obtain ⟨fields, hmem, hcases⟩ := ih hrest
      exact ⟨fields, List.mem_cons_of_mem _ hmem, hcases⟩
    · cases v with
      | table fields =>
        rw [elementSections, List.cons_append, List.mem_cons, List.mem_append] at hs
        exact ⟨fields, List.mem_cons_self, hs.imp_right fun hs => hs.resolve_right hrest⟩
      | _ =>
        rw [elementSections] at hs
        · exact absurd hs hrest
        · exact nofun

/-- The sections of a value are readable below a path that leaves room for the longest header. -/
theorem IsRegular.isReadable {v : Value} (h : IsRegular v) :
    (∀ parents name, parents.length + 1 + nesting v ≤ depthLimit →
      ∀ s ∈ fieldSections parents name v, s.IsReadable) ∧
    ∀ fields parents, v = .table fields → parents.length + nesting v ≤ depthLimit →
      (∀ f ∈ fields, IsRegular f.2) ∧ ∀ s ∈ sectionsOf parents fields, s.IsReadable := by
  -- the two statements need each other: a field gives a header and the sections of its table, and
  -- an element of a list gives the sections of a table that is no field
  induction h with
  | null =>
    refine ⟨fun parents name _ s hs => ?_, fun _ _ hv => (by cases hv)⟩
    rw [fieldSections_of_inline parents .null (Or.inr rfl)] at hs
    cases hs
  | flat h =>
    refine ⟨fun parents name _ s hs => ?_, ?_⟩
    · rw [fieldSections_of_inline parents (.flat h) (Or.inl (isInline_of_flat h))] at hs
      cases hs
    · rintro fields _ rfl
      cases h
  | @table fields hnodup hregular ih =>
    have hsections : ∀ parents, parents.length + nesting (.table fields) ≤ depthLimit →
        ∀ s ∈ sectionsOf parents fields, s.IsReadable := by
      intro parents hlength s hs
      obtain ⟨f, hf, hs⟩ := mem_sectionsOf.mp hs
      by_cases hplain : isInline f.2 = true ∨ isNull f.2 = true
      · rw [fieldSections_of_inline parents (hregular f hf) hplain] at hs
        cases hs
      · obtain ⟨hinline, hnull⟩ := not_or.mp hplain
        have hlt := nesting_lt_of_mem hf (Bool.not_eq_true _ ▸ hinline) (Bool.not_eq_true _ ▸ hnull)
        exact (ih f hf).1 parents f.1 (by omega) s hs
    refine ⟨fun parents name hlength s hs => ?_, ?_⟩
    · rw [fieldSections, List.mem_append] at hs
      rcases hs with hs | hs
      · unfold headerOf at hs
        simp only at hs
        split at hs
        · obtain rfl := List.mem_singleton.mp hs
          exact ⟨by show parents.length + 1 ≤ depthLimit; omega, isReadable_inlineFields hregular⟩
        · cases hs
      · refine hsections (parents ++ [name]) ?_ s hs
        rw [List.length_append, List.length_singleton]
        exact hlength
    · rintro _ parents ⟨⟩ hlength
      exact ⟨hregular, hsections parents hlength⟩
  | @tables items hne hall hregular ih =>
    refine ⟨fun parents name hlength s hs => ?_, fun _ _ hv => (by cases hv)⟩
    rw [fieldSections, if_pos (List.all_eq_true.mpr hall)] at hs
    obtain ⟨fields, hmem, hs⟩ := exists_of_mem_elementSections hs
    have hle := nesting_le_of_mem hmem
    obtain ⟨hfields, hsections⟩ := (ih _ hmem).2 fields (parents ++ [name]) rfl
      (by rw [List.length_append, List.length_singleton]; omega)
    rcases hs with rfl | hs
    · exact ⟨by show parents.length + 1 ≤ depthLimit; omega, isReadable_inlineFields hfields⟩
    · exact hsections s hs

/-- A regular table is read back from its text, if its headers are not too long. -/
theorem read?_ofFields (h : IsRegular (.table fields))
    (hnesting : nesting (.table fields) ≤ depthLimit) :
    read? (Document.ofFields fields).text = some (arranged (.table fields)) := by
  obtain ⟨hregular, hsections⟩ := h.isReadable.2 fields [] rfl (by simpa using hnesting)
  have hreadable : (Document.ofFields fields).IsReadable :=
    ⟨isReadable_inlineFields hregular, hsections⟩
  rw [read?_text hreadable, toValue?_ofFields h]

/-- Whatever is written is read back. -/
theorem read?_of_write? {v : Value} {text : String} (h : IsRegular v)
    (hnesting : nesting v ≤ depthLimit) (hwrite : write? v = some text) :
    read? text = some (arranged v) := by
  cases v with
  | table fields =>
    rw [write?] at hwrite
    split at hwrite
    · cases hwrite
      exact read?_ofFields h hnesting
    · cases hwrite
  | _ => cases hwrite

end Lengths

end ActorLinks.Toml
