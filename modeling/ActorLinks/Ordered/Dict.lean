import ActorLinks.Ordered.Set

/-! # Dictionaries with text keys

Entries are kept in ascending key order, one per key, so that equal dictionaries are equal
values and iteration needs no sorting.
-/
namespace ActorLinks

def putEntry {α : Type} (key : String) (value : α) : List (String × α) → List (String × α)
  | [] => [(key, value)]
  | e :: es =>
    if key < e.1 then (key, value) :: e :: es
    else if e.1 < key then e :: putEntry key value es
    else (key, value) :: es

theorem putEntry_keys {α : Type} (key : String) (value : α) (es : List (String × α)) :
    (putEntry key value es).map Prod.fst = insertAscending key (es.map Prod.fst) := by
  induction es with
  | nil => rfl
  | cons e es ih =>
    simp only [putEntry, List.map_cons, insertAscending]
    split
    · rfl
    · split
      · simp [ih]
      · next h h' => simp [eq_of_not_lt h h']

theorem lookup_putEntry {α : Type} (key : String) (value : α) (es : List (String × α))
    (k : String) :
    (putEntry key value es).lookup k = if k = key then some value else es.lookup k := by
  induction es with
  | nil => by_cases hk : k = key <;> simp [putEntry, List.lookup_cons, hk, beq_false_of_ne]
  | cons e es ih =>
    obtain ⟨a, b⟩ := e
    simp only [putEntry]
    split
    · by_cases hk : k = key <;> simp [List.lookup_cons, hk, beq_false_of_ne]
    · next h1 =>
      split
      · next h2 =>
        simp only [List.lookup_cons, ih]
        by_cases hk : k = key
        · subst hk
          have : (k == a) = false := by
            rw [beq_eq_false_iff_ne]; rintro rfl; exact absurd h2 Std.lt_irrefl
          simp [this]
        · simp [hk]
      · next h2 =>
        have := eq_of_not_lt h1 h2
        subst this
        by_cases hk : k = key <;> simp [List.lookup_cons, hk, beq_false_of_ne]

/-- Finite map from texts; `ascending` makes the entry list canonical. -/
structure Dict (α : Type) where
  entries : List (String × α)
  ascending : (entries.map Prod.fst).Pairwise (· < ·)
  deriving DecidableEq

namespace Dict
variable {α β : Type}

def empty : Dict α := ⟨[], List.Pairwise.nil⟩

instance : EmptyCollection (Dict α) := ⟨empty⟩

instance : Inhabited (Dict α) := ⟨empty⟩

def keys (d : Dict α) : List String := d.entries.map Prod.fst

def values (d : Dict α) : List α := d.entries.map Prod.snd

def size (d : Dict α) : Nat := d.entries.length

def get? (d : Dict α) (key : String) : Option α := d.entries.lookup key

def contains (d : Dict α) (key : String) : Bool := (d.get? key).isSome

/-- Replaces the value of a key that is already there. -/
def insert (d : Dict α) (key : String) (value : α) : Dict α :=
  ⟨putEntry key value d.entries, by
    rw [putEntry_keys]; exact insertAscending_pairwise d.ascending⟩

def ofList (es : List (String × α)) : Dict α := es.foldl (fun d e => d.insert e.1 e.2) empty

/-- Adds one item to the list kept under a key. -/
def append (d : Dict (List β)) (key : String) (item : β) : Dict (List β) :=
  d.insert key ((d.get? key).getD [] ++ [item])

theorem mem_keys_insert {d : Dict α} {key k : String} {value : α} :
    k ∈ (d.insert key value).keys ↔ k = key ∨ k ∈ d.keys := by
  simp only [keys, insert, putEntry_keys, mem_insertAscending]

theorem get?_insert (d : Dict α) (key : String) (value : α) (k : String) :
    (d.insert key value).get? k = if k = key then some value else d.get? k :=
  lookup_putEntry key value d.entries k

theorem mem_entries_iff {d : Dict α} {key : String} {value : α} :
    (key, value) ∈ d.entries ↔ d.get? key = some value := by
  obtain ⟨es, h⟩ := d
  simp only [get?]
  induction es with
  | nil => simp
  | cons e es ih =>
    obtain ⟨k, v⟩ := e
    have hkeys := List.pairwise_cons.mp h
    have hrest := ih hkeys.2
    rw [List.lookup_cons, List.mem_cons]
    by_cases hk : key = k
    · subst hk
      have hnot : (key, value) ∉ es := fun hmem =>
        absurd (hkeys.1 key (List.mem_map_of_mem (f := Prod.fst) hmem)) Std.lt_irrefl
      simp [hnot, eq_comm]
    · simp [hk, beq_false_of_ne hk, hrest]

theorem forall_foldl_insert {P : String → α → Prop} {es : List (String × α)}
    (h : ∀ e ∈ es, P e.1 e.2) {d : Dict α} (hd : ∀ k v, d.get? k = some v → P k v) :
    ∀ k v, (es.foldl (fun d e => d.insert e.1 e.2) d).get? k = some v → P k v := by
  induction es generalizing d with
  | nil => exact hd
  | cons e es ih =>
    refine ih (fun f hf => h f (List.mem_cons_of_mem _ hf)) fun k v hv => ?_
    rw [get?_insert] at hv
    split at hv
    · next hk =>
      cases hv
      exact hk ▸ h e List.mem_cons_self
    · exact hd k v hv

theorem putEntry_of_forall_lt {key : String} {es : List (String × α)}
    (h : ∀ e ∈ es, e.1 < key) (value : α) : putEntry key value es = es ++ [(key, value)] := by
  induction es with
  | nil => rfl
  | cons e es ih =>
    have hlt := h e List.mem_cons_self
    rw [putEntry, if_neg fun h' => Std.lt_irrefl (Std.lt_trans h' hlt), if_pos hlt,
      ih fun e' he' => h e' (List.mem_cons_of_mem _ he'), List.cons_append]

theorem entries_foldl_insert (d : Dict α) (es : List (String × α))
    (h : ((d.entries ++ es).map Prod.fst).Pairwise (· < ·)) :
    (es.foldl (fun d e => d.insert e.1 e.2) d).entries = d.entries ++ es := by
  induction es generalizing d with
  | nil => rw [List.append_nil]; rfl
  | cons e es ih =>
    have hlast : (d.insert e.1 e.2).entries = d.entries ++ [e] := by
      refine putEntry_of_forall_lt (fun e' he' => ?_) e.2
      rw [List.map_append] at h
      exact (List.pairwise_append.mp h).2.2 e'.1 (List.mem_map_of_mem he') e.1 List.mem_cons_self
    rw [List.foldl_cons, ih, hlast, List.append_assoc, List.singleton_append]
    rwa [hlast, List.append_assoc, List.singleton_append]

/-- The entries of a dictionary make it again. -/
theorem ofList_entries (d : Dict α) : ofList d.entries = d := by
  have hentries := entries_foldl_insert empty d.entries d.ascending
  obtain ⟨es, hes⟩ := d
  simp only [ofList]
  cases h : es.foldl (fun d e => d.insert e.1 e.2) empty with
  | mk entries ascending =>
    rw [h] at hentries
    simp only at hentries
    subst hentries
    rfl

/-- What holds of every entry that is put in holds of every entry. -/
theorem forall_ofList {P : String → α → Prop} {es : List (String × α)}
    (h : ∀ e ∈ es, P e.1 e.2) {key : String} {value : α}
    (hget : (ofList es).get? key = some value) : P key value :=
  forall_foldl_insert h (fun k v hv => by simp [get?, empty] at hv) key value hget

end Dict

end ActorLinks
