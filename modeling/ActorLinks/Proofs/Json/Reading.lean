import ActorLinks.Json.Reader
import ActorLinks.Json.Writer
import ActorLinks.Proofs.Text.Digits

/-! # JSON read back

A value without numbers is read back from its text, as long as its containers are not nested deeper
than the reader goes. Every value ends where its text ends, whatever follows.
-/
namespace ActorLinks.Json

/-- A value without numbers, all of it readable. -/
inductive IsPlain : Value → Prop
  | null : IsPlain .null
  | bool (b : Bool) : IsPlain (.bool b)
  | text (s : String) : IsPlain (.text s)
  | list {items : List Value} : (∀ v ∈ items, IsPlain v) → IsPlain (.list items)
  | table {fields : List (String × Value)} : (∀ f ∈ fields, IsPlain f.2) →
    IsPlain (.table fields)

mutual

/-- How many containers of a value lie in one another. -/
def nesting : Value → Nat
  | .list items => itemsNesting items + 1
  | .table fields => fieldsNesting fields + 1
  | _ => 0

def itemsNesting : List Value → Nat
  | [] => 0
  | v :: vs => max (nesting v) (itemsNesting vs)

def fieldsNesting : List (String × Value) → Nat
  | [] => 0
  | (_, v) :: rest => max (nesting v) (fieldsNesting rest)

end

section Strings

theorem units_short {c e : Char} (h : shortEscape? e = some c) {cs rest : List Char}
    {us : List CodeUnit} (hcs : units cs = some (us, rest)) :
    units ('\\' :: e :: cs) = some (.char c :: us, rest) := by
  have hu : e ≠ 'u' := by
    rintro rfl
    cases h
  rw [units.eq_4 e cs fun _ _ _ _ _ he _ => hu he, h, hcs]
  rfl

/-- Any character is read back from what it is written as inside a string. -/
theorem units_escape (c : Char) {cs rest : List Char} {us : List CodeUnit}
    (hcs : units cs = some (us, rest)) :
    units (escape c ++ cs) = some (.char c :: us, rest) := by
  unfold escape
  split
  case h_8 hquote hbackslash _ _ _ _ _ =>
    split
    · next hlow =>
      have hvalue := Text.hexValue?_of_digits (n := c.toNat)
        (Text.hexDigit?_hexChar (by omega)) (Text.hexDigit?_hexChar (by omega))
      have hunit : unitOf c.toNat = .char c := by
        rw [unitOf, if_neg (by simp; omega), if_neg (by simp; omega), Char.ofNat_toNat]
      simp only [List.cons_append, List.nil_append]
      rw [units, hvalue, hcs]
      simp only [Option.bind_eq_bind, Option.bind_some, hunit]
      rfl
    · next hlow =>
      rw [List.singleton_append, units.eq_5 c cs hquote
        (fun _ _ _ _ _ hc _ => hbackslash hc) fun _ _ hc _ => hbackslash hc, if_neg hlow, hcs]
      rfl
  all_goals exact units_short rfl hcs

theorem units_flatMap_escape (cs rest : List Char) :
    units (cs.flatMap escape ++ '"' :: rest) = some (cs.map .char, rest) := by
  induction cs with
  | nil => rfl
  | cons c cs ih =>
    rw [List.flatMap_cons, List.append_assoc]
    exact units_escape c ih

theorem joinUnits_char (cs : List Char) : joinUnits (cs.map .char) = some cs := by
  induction cs with
  | nil => rfl
  | cons c cs ih => rw [List.map_cons, joinUnits, ih, Option.map_some]

theorem toList_quote (s : String) (rest : List Char) :
    (quote s).toList ++ rest = '"' :: (s.toList.flatMap escape ++ '"' :: rest) := by
  simp [quote]

theorem stringBody_quote (s : String) (rest : List Char) :
    stringBody (s.toList.flatMap escape ++ '"' :: rest) = some (some s, rest) := by
  have htext : (joinUnits (s.toList.map .char)).map String.ofList = some s := by
    rw [joinUnits_char, Option.map_some, String.ofList_toList]
  rw [stringBody, units_flatMap_escape, Option.map_some]
  exact congrArg (fun text => some (text, rest)) htext

end Strings

section Blanks
variable {cs : List Char}

theorem skipBlanks_of_head {c : Char} (h : isBlank c = false) :
    skipBlanks (c :: cs) = c :: cs := List.dropWhile_cons_of_neg (by simp [h])

theorem skipBlanks_lineStart (depth : Nat) :
    skipBlanks ((lineStart depth).toList ++ cs) = skipBlanks cs := by
  have hblank : ∀ c ∈ (lineStart depth).toList, isBlank c = true := by
    intro c hc
    simp only [lineStart, String.toList_append, String.toList_ofList, List.mem_append,
      List.mem_replicate] at hc
    rcases hc with hc | ⟨_, rfl⟩
    · obtain rfl : c = '\n' := List.mem_singleton.mp hc
      decide
    · decide
  exact List.dropWhile_append_of_pos hblank

end Blanks

section Texts
variable (depth : Nat) (v : Value)

theorem toList_list (vs : List Value) (rest : List Char) :
    (prettyAt depth (.list (v :: vs))).toList ++ rest = '[' :: ((lineStart (depth + 1)).toList
      ++ ((prettyAt (depth + 1) v).toList ++ ((prettyItems (depth + 1) vs).toList
        ++ ((lineStart depth).toList ++ ']' :: rest)))) := by
  simp [prettyAt, String.toList_append]

theorem toList_table (k : String) (fs : List (String × Value)) (rest : List Char) :
    (prettyAt depth (.table ((k, v) :: fs))).toList ++ rest =
      '\x7b' :: ((lineStart (depth + 1)).toList ++ ((quote k).toList ++ (':' :: ' ' ::
        ((prettyAt (depth + 1) v).toList ++ ((prettyFields (depth + 1) fs).toList
          ++ ((lineStart depth).toList ++ '\x7d' :: rest)))))) := by
  simp [prettyAt, String.toList_append]

/-- No blank stands before a text, and no bracket that would close a list. -/
theorem exists_head {v : Value} (h : IsPlain v) : ∃ c cs,
    (prettyAt depth v).toList = c :: cs ∧ isBlank c = false ∧ c ≠ ']' := by
  cases h with
  | null => exact ⟨'n', "ull".toList, by rw [prettyAt]; rfl, by decide, by decide⟩
  | bool b =>
    cases b with
    | true => exact ⟨'t', "rue".toList, by rw [prettyAt]; rfl, by decide, by decide⟩
    | false => exact ⟨'f', "alse".toList, by rw [prettyAt]; rfl, by decide, by decide⟩
  | text s =>
    refine ⟨'"', s.toList.flatMap escape ++ ['"'], ?_, by decide, by decide⟩
    rw [prettyAt, ← List.append_nil (quote s).toList, toList_quote]
  | @list items _ =>
    cases items with
    | nil => exact ⟨'[', [']'], by rw [prettyAt]; rfl, by decide, by decide⟩
    | cons v vs =>
      have htext := toList_list depth v vs []
      rw [List.append_nil] at htext
      exact ⟨'[', _, htext, by decide, by decide⟩
  | @table fields _ =>
    cases fields with
    | nil => exact ⟨'\x7b', ['\x7d'], by rw [prettyAt]; rfl, by decide, by decide⟩
    | cons f fs =>
      have htext := toList_table depth f.2 f.1 fs []
      rw [List.append_nil] at htext
      exact ⟨'\x7b', _, htext, by decide, by decide⟩

theorem skipBlanks_prettyAt {v : Value} (h : IsPlain v) (after : List Char) :
    skipBlanks ((prettyAt depth v).toList ++ after) = (prettyAt depth v).toList ++ after := by
  obtain ⟨c, cs, hcs, hblank, _⟩ := exists_head depth h
  rw [hcs, List.cons_append, skipBlanks_of_head hblank]

end Texts

section Values

/-- A value is read back wherever the reader has not gone too deep. -/
def Reads (v : Value) : Prop := ∀ (indent depth fuel : Nat) (rest : List Char),
  depth + nesting v ≤ depthLimit → (prettyAt indent v).toList.length ≤ fuel →
    value? fuel depth ((prettyAt indent v).toList ++ rest) = some (v, rest)

theorem limited_of_le {depth : Nat} (h : depth ≤ depthLimit) (v : Value) :
    limited depth v = v := if_neg (Nat.not_lt.mpr h)

theorem afterWord?_append (word : String) (rest : List Char) :
    afterWord? word (word.toList ++ rest) = some rest := by
  have hpre : word.toList.isPrefixOf (word.toList ++ rest) = true :=
    List.isPrefixOf_iff_prefix.mpr (List.prefix_append _ _)
  rw [afterWord?, if_pos hpre, ← String.length_toList, List.drop_left]

theorem reads_word (word : String) {v : Value} {c : Char}
    (htext : ∀ indent, (prettyAt indent v).toList = c :: word.toList)
    (hread : ∀ fuel depth rest, value? (fuel + 1) depth (c :: rest)
      = (afterWord? word rest).map fun after => (v, after)) : Reads v := by
  intro indent depth fuel rest _ hfuel
  rw [htext] at hfuel ⊢
  obtain ⟨fuel, rfl⟩ := Nat.exists_eq_add_one_of_ne_zero (Nat.ne_of_gt (Nat.zero_lt_of_lt hfuel))
  rw [List.cons_append, hread, afterWord?_append, Option.map_some]

theorem reads_null : Reads .null :=
  reads_word "ull" (fun _ => by rw [prettyAt]; rfl)
    fun fuel depth rest => value?.eq_8 (fuel + 1) depth rest nofun

theorem reads_bool (b : Bool) : Reads (.bool b) := by
  cases b with
  | true =>
    exact reads_word "rue" (fun _ => by rw [prettyAt]; rfl)
      fun fuel depth rest => value?.eq_6 (fuel + 1) depth rest nofun
  | false =>
    exact reads_word "alse" (fun _ => by rw [prettyAt]; rfl)
      fun fuel depth rest => value?.eq_7 (fuel + 1) depth rest nofun

theorem reads_text (s : String) : Reads (.text s) := by
  intro indent depth fuel rest _ hfuel
  have hpos : fuel ≠ 0 := by
    rintro rfl
    simp [prettyAt, quote] at hfuel
  rw [prettyAt, toList_quote, value?.eq_3 fuel depth _ hpos, stringBody_quote]
  rfl

theorem items?_prettyItems {depth : Nat} (indent : Nat) (v : Value) (vs : List Value)
    (h : ∀ w ∈ v :: vs, IsPlain w ∧ Reads w) (around : Nat) (rest : List Char) (fuel : Nat)
    (hdepth : depth + itemsNesting (v :: vs) ≤ depthLimit)
    (hfuel : (prettyAt indent v).toList.length + (prettyItems indent vs).toList.length < fuel) :
    items? fuel depth ((prettyAt indent v).toList ++ ((prettyItems indent vs).toList
      ++ ((lineStart around).toList ++ ']' :: rest))) = some (v :: vs, rest) := by
  induction vs generalizing v fuel with
  | nil =>
    obtain ⟨fuel, rfl⟩ := Nat.exists_eq_add_one_of_ne_zero (Nat.ne_of_gt (Nat.zero_lt_of_lt hfuel))
    have hvalue := (h v List.mem_cons_self).2 indent depth fuel
      ((lineStart around).toList ++ ']' :: rest)
      (by rw [itemsNesting] at hdepth; omega) (by omega)
    have hclose : skipBlanks ((lineStart around).toList ++ ']' :: rest) = ']' :: rest := by
      rw [skipBlanks_lineStart, skipBlanks_of_head (by decide)]
    rw [prettyItems, String.toList_empty, List.nil_append, items?.eq_2, hvalue]
    simp only [Option.bind_eq_bind, Option.bind_some, hclose]
    rfl
  | cons w vs ih =>
    obtain ⟨fuel, rfl⟩ := Nat.exists_eq_add_one_of_ne_zero (Nat.ne_of_gt (Nat.zero_lt_of_lt hfuel))
    rw [itemsNesting] at hdepth
    -- the text from the next item on is that of the induction hypothesis, so it stays closed here
    generalize hafter : (prettyAt indent w).toList ++ ((prettyItems indent vs).toList
      ++ ((lineStart around).toList ++ ']' :: rest)) = after
    have htext : (prettyItems indent (w :: vs)).toList ++ ((lineStart around).toList ++ ']' :: rest)
        = ',' :: ((lineStart indent).toList ++ after) := by
      simp [prettyItems, String.toList_append, ← hafter]
    have hlength : (prettyItems indent (w :: vs)).toList.length = 1
        + (lineStart indent).toList.length + (prettyAt indent w).toList.length
          + (prettyItems indent vs).toList.length := by
      simp [prettyItems, String.toList_append]
      omega
    have hvalue := (h v List.mem_cons_self).2 indent depth fuel
      (',' :: ((lineStart indent).toList ++ after)) (by omega) (by omega)
    have hskip : skipBlanks ((lineStart indent).toList ++ after) = after := by
      rw [skipBlanks_lineStart, ← hafter,
        skipBlanks_prettyAt indent (h w (List.mem_cons_of_mem _ List.mem_cons_self)).1]
    have hitems := ih w (fun w' hw' => h w' (List.mem_cons_of_mem _ hw')) fuel (by omega) (by omega)
    rw [htext, items?.eq_2, hvalue]
    simp only [Option.bind_eq_bind, Option.bind_some, skipBlanks_of_head (c := ',') (by decide),
      hskip]
    rw [← hafter, hitems]
    rfl

theorem reads_list {items : List Value} (h : ∀ v ∈ items, IsPlain v ∧ Reads v) :
    Reads (.list items) := by
  intro indent depth fuel rest hdepth hfuel
  have hdepth' : depth + 1 + itemsNesting items ≤ depthLimit := by
    rw [nesting] at hdepth
    omega
  cases items with
  | nil =>
    obtain ⟨fuel, rfl⟩ := Nat.exists_eq_add_one_of_ne_zero (n := fuel) (by
      rintro rfl
      simp [prettyAt] at hfuel)
    rw [prettyAt]
    exact congrArg (fun v => some (v, rest)) (limited_of_le (by omega) (.list []))
  | cons v vs =>
    have hlength := congrArg List.length (toList_list indent v vs [])
    simp only [List.length_cons, List.length_append, List.length_nil] at hlength
    obtain ⟨fuel, rfl⟩ := Nat.exists_eq_add_one_of_ne_zero (n := fuel) (by omega)
    have hitems := items?_prettyItems (indent + 1) v vs h indent rest fuel hdepth' (by omega)
    obtain ⟨c, cs, hcs, hblank, hbracket⟩ := exists_head (indent + 1) (h v List.mem_cons_self).1
    have hskip (after : List Char) : skipBlanks ((lineStart (indent + 1)).toList
        ++ ((prettyAt (indent + 1) v).toList ++ after)) = c :: (cs ++ after) := by
      rw [skipBlanks_lineStart, hcs, List.cons_append, skipBlanks_of_head hblank]
    rw [toList_list, value?.eq_4, hskip]
    rw [hcs, List.cons_append] at hitems
    split
    · next hhead => exact absurd (List.cons.inj hhead).1 hbracket
    · rw [hitems, Option.map_some]
      exact congrArg (fun w => some (w, rest)) (limited_of_le (by omega) _)

theorem fields?_prettyFields {depth : Nat} (indent : Nat) (f : String × Value)
    (fs : List (String × Value)) (h : ∀ e ∈ f :: fs, IsPlain e.2 ∧ Reads e.2) (around : Nat)
    (rest : List Char) (fuel : Nat) (hdepth : depth + fieldsNesting (f :: fs) ≤ depthLimit)
    (hfuel : (prettyAt indent f.2).toList.length + (prettyFields indent fs).toList.length < fuel) :
    fields? fuel depth ((quote f.1).toList ++ (':' :: ' ' :: ((prettyAt indent f.2).toList
      ++ ((prettyFields indent fs).toList ++ ((lineStart around).toList ++ '\x7d' :: rest)))))
      = some ((f :: fs).map fun e => (some e.1, e.2), rest) := by
  induction fs generalizing f fuel with
  | nil =>
    obtain ⟨fuel, rfl⟩ := Nat.exists_eq_add_one_of_ne_zero (Nat.ne_of_gt (Nat.zero_lt_of_lt hfuel))
    obtain ⟨hplain, hreads⟩ := h f List.mem_cons_self
    have hvalue := hreads indent depth fuel ((lineStart around).toList ++ '\x7d' :: rest)
      (by rw [fieldsNesting] at hdepth; omega) (by omega)
    have hgap (after : List Char) : skipBlanks (' ' :: ((prettyAt indent f.2).toList ++ after))
        = (prettyAt indent f.2).toList ++ after := skipBlanks_prettyAt indent hplain after
    have hclose : skipBlanks ((lineStart around).toList ++ '\x7d' :: rest) = '\x7d' :: rest := by
      rw [skipBlanks_lineStart, skipBlanks_of_head (by decide)]
    rw [prettyFields, String.toList_empty, List.nil_append, toList_quote, fields?.eq_1,
      stringBody_quote]
    simp only [Option.bind_eq_bind, Option.bind_some, skipBlanks_of_head (c := ':') (by decide),
      hgap, hvalue, hclose]
    rfl
  | cons e fs ih =>
    obtain ⟨fuel, rfl⟩ := Nat.exists_eq_add_one_of_ne_zero (Nat.ne_of_gt (Nat.zero_lt_of_lt hfuel))
    obtain ⟨hplain, hreads⟩ := h f List.mem_cons_self
    rw [fieldsNesting] at hdepth
    -- the text from the next field on is that of the induction hypothesis, so it stays closed here
    generalize hafter : (quote e.1).toList ++ (':' :: ' ' :: ((prettyAt indent e.2).toList
      ++ ((prettyFields indent fs).toList ++ ((lineStart around).toList ++ '\x7d' :: rest))))
        = after
    have htext : (prettyFields indent (e :: fs)).toList
        ++ ((lineStart around).toList ++ '\x7d' :: rest)
          = ',' :: ((lineStart indent).toList ++ after) := by
      simp [prettyFields, String.toList_append, ← hafter]
    have hlength : (prettyAt indent e.2).toList.length + (prettyFields indent fs).toList.length
        < (prettyFields indent (e :: fs)).toList.length := by
      simp [prettyFields, String.toList_append]
      omega
    have hvalue := hreads indent depth fuel (',' :: ((lineStart indent).toList ++ after))
      (by omega) (by omega)
    have hgap (after : List Char) : skipBlanks (' ' :: ((prettyAt indent f.2).toList ++ after))
        = (prettyAt indent f.2).toList ++ after := skipBlanks_prettyAt indent hplain after
    have hskip : skipBlanks ((lineStart indent).toList ++ after) = after := by
      rw [skipBlanks_lineStart, ← hafter, toList_quote, skipBlanks_of_head (by decide)]
    have hfields := ih e (fun e' he' => h e' (List.mem_cons_of_mem _ he')) fuel (by omega)
      (by omega)
    rw [htext, toList_quote, fields?.eq_1, stringBody_quote]
    simp only [Option.bind_eq_bind, Option.bind_some, skipBlanks_of_head (c := ':') (by decide),
      hgap, hvalue, skipBlanks_of_head (c := ',') (by decide), hskip]
    rw [← hafter, hfields]
    rfl

theorem tableValue_map_some (fields : List (String × Value)) :
    tableValue (fields.map fun f => (some f.1, f.2)) = .table fields := by
  have hkeys : (fields.map fun f => (some f.1, f.2)).mapM (fun f : Option String × Value =>
      f.1.map fun k => (k, f.2)) = some fields := by
    induction fields with
    | nil => rfl
    | cons f fs ih =>
      rw [List.map_cons, List.mapM_cons, ih]
      rfl
  rw [tableValue, hkeys]

theorem reads_table {fields : List (String × Value)} (h : ∀ f ∈ fields, IsPlain f.2 ∧ Reads f.2) :
    Reads (.table fields) := by
  intro indent depth fuel rest hdepth hfuel
  have hdepth' : depth + 1 + fieldsNesting fields ≤ depthLimit := by
    rw [nesting] at hdepth
    omega
  cases fields with
  | nil =>
    obtain ⟨fuel, rfl⟩ := Nat.exists_eq_add_one_of_ne_zero (n := fuel) (by
      rintro rfl
      simp [prettyAt] at hfuel)
    rw [prettyAt]
    exact congrArg (fun v => some (v, rest)) (limited_of_le (by omega) (.table []))
  | cons f fs =>
    have hlength := congrArg List.length (toList_table indent f.2 f.1 fs [])
    have heta : (f.1, f.2) = f := rfl
    rw [heta] at hlength
    simp only [List.length_cons, List.length_append, List.length_nil] at hlength
    obtain ⟨fuel, rfl⟩ := Nat.exists_eq_add_one_of_ne_zero (n := fuel) (by omega)
    have hfields := fields?_prettyFields (indent + 1) f fs h indent rest fuel hdepth' (by omega)
    have hskip (after : List Char) : skipBlanks ((lineStart (indent + 1)).toList
        ++ ((quote f.1).toList ++ after)) = '"' :: (f.1.toList.flatMap escape ++ '"' :: after) := by
      rw [skipBlanks_lineStart, toList_quote, skipBlanks_of_head (by decide)]
    rw [toList_quote] at hfields
    rw [toList_table, value?.eq_5, hskip]
    split
    · next hhead => exact absurd (List.cons.inj hhead).1 (by decide)
    · rw [hfields, Option.map_some]
      simp only
      rw [tableValue_map_some, limited_of_le (by omega)]

theorem IsPlain.reads {v : Value} (h : IsPlain v) : Reads v := by
  induction h with
  | null => exact reads_null
  | bool b => exact reads_bool b
  | text s => exact reads_text s
  | list h ih => exact reads_list fun v hv => ⟨h v hv, ih v hv⟩
  | table h ih => exact reads_table fun f hf => ⟨h f hf, ih f hf⟩

/-- A value without numbers is read back from its text. -/
theorem read?_pretty {v : Value} (h : IsPlain v) (hnesting : nesting v ≤ depthLimit) :
    read? (pretty v) = some v := by
  have hskip := skipBlanks_prettyAt 0 h []
  have hvalue := h.reads 0 0 ((prettyAt 0 v).toList.length + 1) [] (by omega) (by omega)
  rw [List.append_nil] at hskip hvalue
  rw [read?, pretty, hskip]
  simp only [hvalue, Option.bind_eq_bind, Option.bind_some]
  rfl

end Values

end ActorLinks.Json
