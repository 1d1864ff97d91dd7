import ActorLinks.Proofs.Toml.Quoted
import ActorLinks.Toml.Reader
import ActorLinks.Toml.Writer
import Mathlib.Data.List.TakeDrop

/-! # Documents read back

The text of a document is read line by line into the statements that it was written from, as long as
its values are plain and its paths are not too long.
-/
namespace ActorLinks.Toml

section Scanning

theorem takeWhile_append_of_stop {p : Char → Bool} {word : List Char} (rest : List Char)
    (hword : ∀ c ∈ word, p c = true) (hrest : ∀ c ∈ rest.head?, p c = false) :
    (word ++ rest).takeWhile p = word := by
  rw [List.takeWhile_append_of_pos hword]
  cases rest with
  | nil => simp
  | cons d rest => simp [hrest d rfl]

theorem dropWhile_append_of_stop {p : Char → Bool} (word : List Char) {rest : List Char}
    (hword : ∀ c ∈ word, p c = true) (hrest : ∀ c ∈ rest.head?, p c = false) :
    (word ++ rest).dropWhile p = rest := by
  rw [List.dropWhile_append_of_pos hword]
  cases rest with
  | nil => rfl
  | cons d rest => simp [hrest d rfl]

theorem skipBlanks_of_head? {cs : List Char} (h : ∀ c ∈ cs.head?, isBlank c = false) :
    skipBlanks cs = cs := dropWhile_append_of_stop [] (by simp) h

/-- Nothing is passed over in front of such a character. -/
def IsMark (c : Char) : Prop := isBlank c = false ∧ c ≠ '#' ∧ c ≠ '\n'

instance (c : Char) : Decidable (IsMark c) := inferInstanceAs (Decidable (_ ∧ _))

theorem skipComment_of_head? {cs : List Char} (h : ∀ c ∈ cs.head?, c ≠ '#') :
    skipComment cs = cs := by
  cases cs with
  | nil => rfl
  | cons c cs => exact skipComment.eq_2 _ fun rest hc => h c rfl (List.cons.inj hc).1

theorem skipLines_of_mark {cs : List Char} (h : ∀ c ∈ cs.head?, IsMark c) (n : Nat) :
    skipLines n cs = cs := by
  cases n with
  | zero => rfl
  | succ n =>
    rw [skipLines, skipBlanks_of_head? fun c hc => (h c hc).1,
      skipComment_of_head? fun c hc => (h c hc).2.1]
    split
    · next rest => exact absurd rfl (h '\n' rfl).2.2
    · rfl

/-- One blank or one line break is passed over. -/
theorem skipLines_after_gap {gap : List Char} {cs : List Char}
    (hgap : gap = [] ∨ gap = [' '] ∨ gap = ['\n']) (h : ∀ c ∈ cs.head?, IsMark c) :
    skipLines (gap ++ cs).length (gap ++ cs) = cs := by
  rcases hgap with rfl | rfl | rfl
  · exact skipLines_of_mark h _
  · have hblanks : skipBlanks (' ' :: cs) = cs :=
      dropWhile_append_of_stop [' '] (by simp [isBlank]) fun c hc => (h c hc).1
    rw [List.singleton_append, List.length_cons, skipLines, hblanks,
      skipComment_of_head? fun c hc => (h c hc).2.1]
    split
    · next rest => exact absurd rfl (h '\n' rfl).2.2
    · rfl
  · exact skipLines_of_mark h _

end Scanning

section Values

/-- Where a plain value ends. -/
def IsStop (c : Char) : Prop := c = '\n' ∨ c = ',' ∨ c = ']'

variable {rest : List Char} (hrest : ∀ c ∈ rest.head?, IsStop c)
include hrest

theorem head?_ne_of_stop {d : Char} (hd : ¬ IsStop d) : rest.head? ≠ some d :=
  fun h => hd (hrest d h)

/-- A word is read up to its end. -/
theorem unquoted?_append {word : List Char} (hword : ∀ c ∈ word, isWordChar c = true) :
    unquoted? (word ++ rest) = (ofWord? word).map fun v => (v, rest) := by
  have hstop : ∀ c ∈ rest.head?, isWordChar c = false := by
    intro c hc
    rcases hrest c hc with rfl | rfl | rfl <;> decide
  have hblank := head?_ne_of_stop hrest (d := ' ') (by simp [IsStop])
  unfold unquoted?
  simp only [List.span_eq_takeWhile_dropWhile, takeWhile_append_of_stop rest hword hstop,
    dropWhile_append_of_stop word hword hstop]
  split
  · next rest' _ => exact absurd rfl hblank
  · rfl

/-- A word that begins like no other kind of value is read as a word. -/
theorem value?_word (word : List Char) {v : Value} (hword : ∀ c ∈ word, isWordChar c = true)
    (hne : word ≠ []) (hv : ofWord? word = some v) (depth : Nat) :
    value? depth (word ++ rest) = some (v, rest) := by
  obtain ⟨c, word, rfl⟩ := List.exists_cons_of_ne_nil hne
  have hc := hword c List.mem_cons_self
  have hother {d : Char} {cs : List Char} (hd : isWordChar d = false)
      (h : (c :: word) ++ rest = d :: cs) : False := by
    rw [(List.cons.inj h).1, hd] at hc
    cases hc
  rw [value?.eq_5 depth _ (fun _ => hother (by decide)) (fun _ => hother (by decide))
    (fun _ _ h _ => hother (by decide) h) (fun _ _ h _ => hother (by decide) h),
    unquoted?_append hrest hword, hv, Option.map_some]

theorem value?_quote (s : String) (depth : Nat) :
    value? depth (quote s.toList ++ rest) = some (.text s, rest) := by
  have hstring := string?_quote s.toList (head?_ne_of_stop hrest (by simp [IsStop]))
    (head?_ne_of_stop hrest (d := '\'') (by simp [IsStop]))
  rw [String.ofList_toList] at hstring
  rcases head?_quote s.toList rest with hhead | hhead
  · obtain ⟨cs, hcs⟩ := List.head?_eq_some_iff.mp hhead
    rw [hcs] at hstring ⊢
    rw [value?.eq_1, hstring, Option.map_some]
  · obtain ⟨cs, hcs⟩ := List.head?_eq_some_iff.mp hhead
    rw [hcs] at hstring ⊢
    rw [value?.eq_2, hstring, Option.map_some]

end Values

section Numbers
variable {n : Nat}

theorem notMem_of_digits {ds : List Char} (h : ∀ c ∈ ds, c.isDigit = true) {d : Char}
    (hd : d.isDigit = false) : d ∉ ds := fun hmem => by
  rw [h d hmem] at hd
  cases hd

theorem ungrouped?_of_digits {ds : List Char} (hne : ds ≠ [])
    (h : ∀ c ∈ ds, c.isDigit = true) : ungrouped? Char.isDigit ds = some ds := by
  induction ds with
  | nil => exact absurd rfl hne
  | cons c ds ih =>
    have hc := h c List.mem_cons_self
    have hds := fun d hd => h d (List.mem_cons_of_mem c hd)
    cases ds with
    | nil => rw [ungrouped?, if_pos hc]
    | cons d ds =>
      have hd : d ≠ '_' := by
        rintro rfl
        exact notMem_of_digits hds (by decide) List.mem_cons_self
      rw [ungrouped?.eq_4 _ _ _ (by simp) fun rest hr => hd (List.cons.inj hr).1, if_pos hc,
        ih (by simp) hds, Option.map_some]

theorem isWordChar_of_isDigit {c : Char} (h : c.isDigit = true) : isWordChar c = true := by
  simp [isWordChar, Char.isAlphanum, h]

theorem signed_of_digits {ds : List Char} (h : ∀ c ∈ ds, c.isDigit = true) :
    signed ds = (false, ds) := by
  have hsign {d : Char} {rest : List Char} (hd : d.isDigit = false) (hds : ds = d :: rest) :
      False := notMem_of_digits h hd (hds ▸ List.mem_cons_self)
  exact signed.eq_3 ds (fun _ => hsign (by decide)) fun _ => hsign (by decide)

theorem splitAtFirst_of_forall {p : Char → Bool} {cs : List Char} (h : ∀ c ∈ cs, p c = false) :
    splitAtFirst p cs = (cs, none) := by
  have hword : ∀ c ∈ cs, (!p c) = true := fun c hc => by rw [h c hc]; rfl
  have htake : cs.takeWhile (fun c => !p c) = cs := by
    simpa using takeWhile_append_of_stop [] hword (by simp)
  have hdrop : cs.dropWhile (fun c => !p c) = [] := by
    simpa using @dropWhile_append_of_stop _ cs [] hword (by simp)
  rw [splitAtFirst, htake, hdrop]

section Words
variable {ds : List Char} (h : ∀ c ∈ ds, c.isDigit = true)
include h

theorem isDate_of_digits : isDate ds = false := by
  unfold isDate
  split
  · exact absurd (by simp) (notMem_of_digits h (d := '-') (by decide))
  · rfl

theorem isTime_of_digits : isTime ds = false := by
  have hclock : isClock (ds.take 5) = false := by
    unfold isClock
    split
    · next htake =>
      have hcolon : ':' ∈ ds.take 5 := by simp [htake]
      exact absurd (List.mem_of_mem_take hcolon) (notMem_of_digits h (by decide))
    · rfl
  rw [isTime, hclock]

theorem isDateTime_of_digits : isDateTime ds = false := by
  have hmark {d : Char} {time : List Char} (hd : d.isDigit = false) :
      ds.drop 10 ≠ d :: time := fun hdrop =>
    notMem_of_digits h hd (List.mem_of_mem_drop (hdrop ▸ List.mem_cons_self))
  unfold isDateTime
  split
  · next hdrop => exact absurd hdrop (hmark (by decide))
  · next hdrop => exact absurd hdrop (hmark (by decide))
  · rfl

theorem isFloat_of_digits : isFloat ds = false := by
  have hinf : ds ≠ ['i', 'n', 'f'] := by
    rintro rfl
    exact notMem_of_digits h (d := 'i') (by decide) (by decide)
  have hnan : ds ≠ ['n', 'a', 'n'] := by
    rintro rfl
    exact notMem_of_digits h (d := 'n') (by decide) (by decide)
  have hexponent : splitAtFirst (fun c => c = 'e' || c = 'E') ds = (ds, none) := by
    refine splitAtFirst_of_forall fun c hc => ?_
    have he : c ≠ 'e' ∧ c ≠ 'E' := by
      constructor <;>
        rintro rfl <;>
        exact notMem_of_digits h (by decide) hc
    simp [he]
  have hpoint : splitAtFirst (· = '.') ds = (ds, none) := by
    refine splitAtFirst_of_forall fun c hc => ?_
    have hp : c ≠ '.' := by
      rintro rfl
      exact notMem_of_digits h (by decide) hc
    simp [hp]
  -- the digits are the mantissa as a whole, so there is neither a fraction nor an exponent
  simp only [isFloat, signed_of_digits h, hexponent, hpoint, hinf, hnan]
  cases decimal? ds <;> rfl

/-- Digits alone are no truth value, no date, no time and no fraction. -/
theorem ofWord?_of_digits : ofWord? ds = (int? ds).map .int := by
  have htrue : ds ≠ "true".toList := by
    rintro rfl
    exact notMem_of_digits h (d := 't') (by decide) (by decide)
  have hfalse : ds ≠ "false".toList := by
    rintro rfl
    exact notMem_of_digits h (d := 'f') (by decide) (by decide)
  rw [ofWord?, if_neg htrue, if_neg hfalse, isDate_of_digits h, isTime_of_digits h,
    isDateTime_of_digits h, isFloat_of_digits h]
  rfl

end Words

theorem int?_toDigits (hn : inRange n = true) : int? (Nat.toDigits 10 n) = some (n : Int) := by
  have hdigits : ∀ c ∈ Nat.toDigits 10 n, c.isDigit = true :=
    fun c hc => Nat.isDigit_of_mem_toDigits (by decide) (by decide) hc
  have hdecimal : decimal? (Nat.toDigits 10 n) = some (Nat.toDigits 10 n) := by
    rw [decimal?, ungrouped?_of_digits Nat.toDigits_ne_nil hdigits, Option.filter_some, if_pos]
    rw [Bool.or_eq_true, bne_iff_ne, decide_eq_true_iff]
    exact Text.no_leading_zero n
  have hbase {d : Char} (hd : d.isDigit = false) (rest : List Char) :
      Nat.toDigits 10 n ≠ '0' :: d :: rest := fun hds =>
    notMem_of_digits hdigits hd (by simp [hds])
  unfold int?
  split
  · next hds => exact absurd hds (hbase (by decide) _)
  · next hds => exact absurd hds (hbase (by decide) _)
  · next hds => exact absurd hds (hbase (by decide) _)
  · simp only [signed_of_digits hdigits, hdecimal, Option.map_some, Text.valueIn_toDigits,
      Bool.false_eq_true, if_false, Option.filter_some, if_pos hn]

end Numbers

section Flat
variable {v : Value} {rest : List Char}

/-- A value that stands behind its key on one line: a truth value, a whole number, a text or a list
of texts. -/
inductive IsFlat : Value → Prop
  | bool (b : Bool) : IsFlat (.bool b)
  | int {n : Nat} : inRange n = true → IsFlat (.int n)
  | text (s : String) : IsFlat (.text s)
  | texts (ss : List String) : IsFlat (.list (ss.map .text))

theorem toList_valueText_int (n : Nat) : (valueText (.int n)).toList = Nat.toDigits 10 n := by
  have htext : valueText (.int n) = toString n := rfl
  rw [htext, Nat.toString_eq_ofList_toDigits, String.toList_ofList]

theorem toList_valueText_text (s : String) : (valueText (.text s)).toList = quote s.toList := by
  rw [valueText, String.toList_ofList]

theorem items?_step {value? : List Char → Option (Value × List Char)} {count : Nat}
    {cs body after : List Char} (hbody : skipLines cs.length cs = body)
    (hopen : body.head? ≠ some ']') (hv : value? body = some (v, after)) :
    items? value? (count + 1) cs =
      match skipLines after.length after with
      | ']' :: rest => some ([v], rest)
      | ',' :: rest => (items? value? count rest).map fun (vs, r) => (v :: vs, r)
      | _ => none := by
  rw [items?.eq_2, hbody]
  split
  · exact absurd rfl hopen
  · rw [hv]
    rfl

theorem isMark_quote (s : String) (cs : List Char) :
    ∀ c ∈ (quote s.toList ++ cs).head?, IsMark c ∧ c ≠ ']' := by
  intro c hc
  rcases head?_quote s.toList cs with hhead | hhead <;>
    · rw [hhead] at hc
      cases hc
      decide

/-- The texts of a list are read up to its closing bracket. -/
theorem items?_texts (depth : Nat) (s : String) (ss : List String) {gap : List Char}
    (hgap : gap = [] ∨ gap = [' '] ∨ gap = ['\n']) {count : Nat} (hcount : ss.length < count) :
    items? (value? depth) count
        (gap ++ (quote s.toList ++ ((itemTexts (ss.map .text)).toList ++ ']' :: rest)))
      = some (.text s :: ss.map .text, rest) := by
  induction ss generalizing s gap count with
  | nil =>
    obtain ⟨count, rfl⟩ := Nat.exists_eq_succ_of_ne_zero (Nat.ne_of_gt hcount)
    have hquote := isMark_quote s (']' :: rest)
    have hvalue : value? depth (quote s.toList ++ ']' :: rest) = some (.text s, ']' :: rest) :=
      value?_quote (by rintro c ⟨⟩; simp [IsStop]) s depth
    have hclose : skipLines (']' :: rest).length (']' :: rest) = ']' :: rest :=
      skipLines_of_mark (by rintro c ⟨⟩; decide) _
    show items? (value? depth) (count + 1) (gap ++ (quote s.toList ++ ']' :: rest)) = _
    rw [items?_step (skipLines_after_gap hgap fun c hc => (hquote c hc).1)
      (fun h => (hquote _ h).2 rfl) hvalue, hclose]
    rfl
  | cons t ss ih =>
    obtain ⟨count, rfl⟩ := Nat.exists_eq_succ_of_ne_zero (Nat.ne_of_gt (Nat.zero_lt_of_lt hcount))
    have hmore : (itemTexts ((t :: ss).map .text)).toList ++ ']' :: rest = ',' :: ([' ']
        ++ (quote t.toList ++ ((itemTexts (ss.map .text)).toList ++ ']' :: rest))) := by
      simp [itemTexts, String.toList_append, toList_valueText_text]
    rw [hmore]
    generalize hcs : [' '] ++ (quote t.toList ++ ((itemTexts (ss.map .text)).toList ++ ']' :: rest))
      = cs
    have hquote := isMark_quote s (',' :: cs)
    have hvalue : value? depth (quote s.toList ++ ',' :: cs) = some (.text s, ',' :: cs) :=
      value?_quote (by rintro c ⟨⟩; simp [IsStop]) s depth
    have hcomma : skipLines (',' :: cs).length (',' :: cs) = ',' :: cs :=
      skipLines_of_mark (by rintro c ⟨⟩; decide) _
    rw [items?_step (skipLines_after_gap hgap fun c hc => (hquote c hc).1)
      (fun h => (hquote _ h).2 rfl) hvalue, hcomma]
    show (items? (value? depth) count cs).map _ = _
    rw [← hcs, ih t (Or.inr (Or.inl rfl)) (Nat.lt_of_succ_lt_succ hcount), Option.map_some]
    rfl

theorem length_le_itemTexts (ss : List String) :
    ss.length ≤ (itemTexts (ss.map .text)).toList.length := by
  induction ss with
  | nil => simp
  | cons s ss ih =>
    simp only [List.map_cons, itemTexts, String.toList_append, List.length_append,
      List.length_cons]
    have hcomma : (", ".toList).length = 2 := rfl
    omega

/-- A flat value is read back, at any depth that lets a list stand. -/
theorem value?_valueText (hv : IsFlat v) (hrest : ∀ c ∈ rest.head?, IsStop c) (depth : Nat) :
    value? (depth + 1) ((valueText v).toList ++ rest) = some (v, rest) := by
  cases hv with
  | bool b =>
    cases b with
    | true =>
      exact value?_word hrest "true".toList (List.all_eq_true.mp (by decide)) (by decide) rfl _
    | false =>
      exact value?_word hrest "false".toList (List.all_eq_true.mp (by decide)) (by decide) rfl _
  | @int n hn =>
    have hdigits : ∀ c ∈ Nat.toDigits 10 n, c.isDigit = true :=
      fun c hc => Nat.isDigit_of_mem_toDigits (by decide) (by decide) hc
    rw [toList_valueText_int]
    refine value?_word hrest _ (fun c hc => isWordChar_of_isDigit (hdigits c hc))
      Nat.toDigits_ne_nil ?_ _
    rw [ofWord?_of_digits hdigits, int?_toDigits hn, Option.map_some]
  | text s =>
    rw [toList_valueText_text]
    exact value?_quote hrest s _
  | texts ss =>
    cases ss with
    | nil =>
      have hclose : skipLines (']' :: rest).length (']' :: rest) = ']' :: rest :=
        skipLines_of_mark (by rintro c ⟨⟩; decide) _
      show value? (depth + 1) ('[' :: ']' :: rest) = _
      rw [value?.eq_3, items?.eq_2, hclose]
      rfl
    | cons s ss =>
      have hlist : (valueText (.list ((s :: ss).map .text))).toList ++ rest = '[' ::
          ([] ++ (quote s.toList ++ ((itemTexts (ss.map .text)).toList ++ ']' :: rest))) := by
        simp [valueText, String.toList_append]
      have hcount : ss.length < ([] ++ (quote s.toList ++
          ((itemTexts (ss.map .text)).toList ++ ']' :: rest))).length + 1 := by
        have hlength := length_le_itemTexts ss
        simp only [List.nil_append, List.length_append, List.length_cons]
        omega
      rw [hlist, value?.eq_3, items?_texts depth s ss (Or.inl rfl) hcount, Option.map_some]
      rfl

theorem carriageReturn_not_mem_itemTexts (ss : List String) :
    '\r' ∉ (itemTexts (ss.map .text)).toList := by
  induction ss with
  | nil => simp [itemTexts]
  | cons s ss ih =>
    simpa [itemTexts, String.toList_append, toList_valueText_text] using
      ⟨carriageReturn_not_mem_quote s.toList, ih⟩

theorem carriageReturn_not_mem_valueText (hv : IsFlat v) : '\r' ∉ (valueText v).toList := by
  cases hv with
  | bool b => cases b <;> decide
  | @int n hn =>
    rw [toList_valueText_int]
    intro hmem
    have hdigit := Nat.isDigit_of_mem_toDigits (b := 10) (by decide) (by decide) hmem
    exact absurd hdigit (by decide)
  | text s =>
    rw [toList_valueText_text]
    exact carriageReturn_not_mem_quote s.toList
  | texts ss =>
    cases ss with
    | nil => decide
    | cons s ss =>
      simpa [valueText, String.toList_append] using
        ⟨carriageReturn_not_mem_quote s.toList, carriageReturn_not_mem_itemTexts ss⟩

end Flat

section Paths
variable {rest : List Char}

/-- Keys with points between them. -/
def pathChars : List String → List Char
  | [] => []
  | [name] => quoteKey name.toList
  | name :: names => quoteKey name.toList ++ '.' :: pathChars names

theorem toList_path (p : Path) : p.text.toList = pathChars (p.parents ++ [p.name]) := by
  have hpath (names : List String) :
      ".".toList.intercalate ((names.map keyText).map String.toList) = pathChars names := by
    induction names with
    | nil => rfl
    | cons name names ih =>
      cases names with
      | nil => simp [pathChars, keyText]
      | cons next names =>
        simp only [List.map_cons, List.intercalate_cons_cons] at ih ⊢
        rw [ih]
        simp [pathChars, keyText]
  rw [Path.text, String.toList_intercalate, hpath]

theorem isBlank_quoteKey (s rest : List Char) :
    ∀ c ∈ (quoteKey s ++ rest).head?, isBlank c = false := by
  intro c hc
  obtain ⟨d, hd, hmark⟩ := head?_quoteKey s rest
  rw [hd] at hc
  cases hc
  rcases hmark with rfl | rfl | hbare
  · decide
  · decide
  · cases hblank : isBlank c with
    | false => rfl
    | true =>
      simp only [isBlank, Bool.or_eq_true, decide_eq_true_eq] at hblank
      rcases hblank with rfl | rfl <;> exact absurd hbare (by decide)

/-- A path is read back where neither a point nor a character of a bare key follows. -/
theorem keys?_pathChars {names : List String} (hne : names ≠ []) {limit : Nat}
    (hlimit : names.length ≤ limit) (hbare : ∀ c ∈ rest.head?, isBare c = false)
    (hpoint : (skipBlanks rest).head? ≠ some '.') :
    keys? limit (pathChars names ++ rest) = some (names, skipBlanks rest) := by
  induction names generalizing limit with
  | nil => exact absurd rfl hne
  | cons name names ih =>
    obtain ⟨limit, rfl⟩ := Nat.exists_eq_succ_of_ne_zero (Nat.ne_of_gt (Nat.lt_of_lt_of_le
      (Nat.succ_pos names.length) hlimit))
    cases names with
    | nil =>
      have hkey := key?_quoteKey name.toList hbare
      rw [String.ofList_toList] at hkey
      show keys? (limit + 1) (quoteKey name.toList ++ rest) = _
      rw [keys?.eq_2, skipBlanks_of_head? (isBlank_quoteKey _ _), hkey]
      simp only [Option.bind_eq_bind, Option.bind_some]
      split
      · next hdot => exact absurd (by rw [hdot, List.head?_cons]) hpoint
      · rfl
    | cons next names =>
      have hkey : key? (quoteKey name.toList ++ '.' :: (pathChars (next :: names) ++ rest))
          = some (name, '.' :: (pathChars (next :: names) ++ rest)) := by
        rw [key?_quoteKey name.toList (by rintro c ⟨⟩; decide), String.ofList_toList]
      have hsplit : pathChars (name :: next :: names) ++ rest
          = quoteKey name.toList ++ '.' :: (pathChars (next :: names) ++ rest) := by
        simp [pathChars]
      rw [hsplit, keys?.eq_2, skipBlanks_of_head? (isBlank_quoteKey _ _), hkey]
      simp only [Option.bind_eq_bind, Option.bind_some]
      rw [skipBlanks_of_head? (by rintro c ⟨⟩; decide)]
      simp only
      rw [ih (by simp) (Nat.le_of_succ_le_succ hlimit), Option.map_some]

/-- The keys that lead to the place of an entry. -/
def Path.length (p : Path) : Nat := p.parents.length + 1

theorem path?_text {p : Path} (hp : p.length ≤ depthLimit)
    (hbare : ∀ c ∈ rest.head?, isBare c = false) (hpoint : (skipBlanks rest).head? ≠ some '.') :
    path? (p.text.toList ++ rest) = some (p, skipBlanks rest) := by
  have hlength : (p.parents ++ [p.name]).length ≤ depthLimit := by simpa [Path.length] using hp
  rw [toList_path, path?, keys?_pathChars (by simp) hlength hbare hpoint]
  simp

end Paths

section Statements

theorem isBlank_valueText {v : Value} (hv : IsFlat v) {rest : List Char} :
    ∀ c ∈ ((valueText v).toList ++ rest).head?, isBlank c = false := by
  intro c hc
  cases hv with
  | bool b =>
    cases b <;>
      · cases hc
        decide
  | @int n hn =>
    rw [toList_valueText_int, List.head?_append_of_ne_nil _ Nat.toDigits_ne_nil] at hc
    have hdigit := Nat.isDigit_of_mem_toDigits (b := 10) (by decide) (by decide)
      (List.mem_of_mem_head? hc)
    cases hblank : isBlank c with
    | false => rfl
    | true =>
      simp only [isBlank, Bool.or_eq_true, decide_eq_true_eq] at hblank
      rcases hblank with rfl | rfl <;> exact absurd hdigit (by decide)
  | text s =>
    rw [toList_valueText_text] at hc
    exact (isMark_quote s rest c hc).1.1
  | texts ss =>
    cases ss with
    | nil =>
      cases hc
      decide
    | cons s ss =>
      simp only [List.map_cons, valueText, String.toList_append, List.append_assoc] at hc
      cases hc
      decide

/-- A line that is read as a statement, whatever follows it. -/
structure IsLine (text : List Char) (st : Statement) : Prop where
  start : ∃ c, text.head? = some c ∧ IsMark c ∧ c ≠ '\ufeff'
  unbroken : '\r' ∉ text
  read : ∀ rest, statement? (text ++ rest) = some (st, rest)

theorem carriageReturn_not_mem_path (p : Path) : '\r' ∉ p.text.toList := by
  have hpath (names : List String) : '\r' ∉ pathChars names := by
    induction names with
    | nil => simp [pathChars]
    | cons name names ih =>
      have hkey := carriageReturn_not_mem_quoteKey name.toList
      cases names with
      | nil => exact hkey
      | cons next names =>
        rw [pathChars.eq_3 _ _ (by simp), List.mem_append, List.mem_cons, not_or, not_or]
        exact ⟨hkey, by decide, ih⟩
  rw [toList_path]
  exact hpath _

/-- No statement but a header begins with a bracket. -/
theorem head?_path (p : Path) (rest : List Char) :
    ∃ c, (p.text.toList ++ rest).head? = some c ∧ IsMark c ∧ c ≠ '\ufeff' ∧ c ≠ '[' := by
  have hpath (names : List String) (hne : names ≠ []) :
      ∃ (s : String) (cs : List Char), pathChars names ++ rest = quoteKey s.toList ++ cs := by
    match names with
    | [name] => exact ⟨name, rest, rfl⟩
    | name :: next :: names =>
      exact ⟨name, '.' :: (pathChars (next :: names) ++ rest), by simp [pathChars]⟩
  obtain ⟨s, cs, hcs⟩ := hpath (p.parents ++ [p.name]) (by simp)
  obtain ⟨c, hc, hmark⟩ := head?_quoteKey s.toList cs
  rw [toList_path, hcs]
  refine ⟨c, hc, ?_⟩
  rcases hmark with rfl | rfl | hbare
  · decide
  · decide
  · have hother {d : Char} (hd : isBare d = false) : c ≠ d := by
      rintro rfl
      rw [hbare] at hd
      cases hd
    refine ⟨⟨?_, hother (by decide), hother (by decide)⟩, hother (by decide), hother (by decide)⟩
    simp [isBlank, hother (d := ' ') (by decide), hother (d := '\t') (by decide)]

theorem assignment?_text {a : Assignment} (hv : IsFlat a.value) (hp : a.path.length ≤ depthLimit)
    (rest : List Char) :
    assignment? (value? depthLimit) (a.text.toList ++ rest) = some (a, '\n' :: rest) := by
  have htext : a.text.toList ++ rest = a.path.text.toList
      ++ (' ' :: '=' :: ' ' :: ((valueText a.value).toList ++ '\n' :: rest)) := by
    simp [Assignment.text, String.toList_append]
  have hskip : skipBlanks (' ' :: '=' :: ' ' :: ((valueText a.value).toList ++ '\n' :: rest))
      = '=' :: ' ' :: ((valueText a.value).toList ++ '\n' :: rest) := rfl
  have hpath : path? (a.path.text.toList
      ++ ' ' :: '=' :: ' ' :: ((valueText a.value).toList ++ '\n' :: rest))
        = some (a.path, skipBlanks _) :=
    path?_text hp (by rintro c ⟨⟩; decide) (by rw [hskip, List.head?_cons]; decide)
  have hvalue : value? depthLimit ((valueText a.value).toList ++ '\n' :: rest)
      = some (a.value, '\n' :: rest) :=
    value?_valueText hv (by rintro c ⟨⟩; exact Or.inl rfl) (depthLimit - 1)
  have hblank : skipBlanks (' ' :: ((valueText a.value).toList ++ '\n' :: rest))
      = (valueText a.value).toList ++ '\n' :: rest :=
    dropWhile_append_of_stop [' '] (by simp [isBlank]) (isBlank_valueText hv)
  rw [assignment?, htext, hpath, hskip]
  simp only [Option.bind_eq_bind, Option.bind_some, expect?, if_true, hblank]
  rw [hvalue]
  rfl

theorem isLine_assignment {a : Assignment} (hv : IsFlat a.value) (hp : a.path.length ≤ depthLimit) :
    IsLine a.text.toList (.assign a) := by
  have htext (rest : List Char) : ∃ cs, a.text.toList ++ rest = a.path.text.toList ++ cs :=
    ⟨_, by simp only [Assignment.text, String.toList_append, List.append_assoc]; rfl⟩
  refine ⟨?_, ?_, fun rest => ?_⟩
  · obtain ⟨cs, hcs⟩ := htext []
    obtain ⟨c, hc, hmark, hbom, _⟩ := head?_path a.path cs
    rw [← hcs, List.append_nil] at hc
    exact ⟨c, hc, hmark, hbom⟩
  · have hpath := carriageReturn_not_mem_path a.path
    have hvalue := carriageReturn_not_mem_valueText hv
    simp [Assignment.text, String.toList_append, hpath, hvalue]
  · obtain ⟨cs, hcs⟩ := htext rest
    obtain ⟨c, hc, _, _, hbracket⟩ := head?_path a.path cs
    rw [← hcs] at hc
    have hopen (cs : List Char) (h : a.text.toList ++ rest = '[' :: cs) : False := by
      rw [h] at hc
      cases hc
      exact hbracket rfl
    rw [statement?.eq_3 _ (fun cs => hopen _) hopen, assignment?_text hv hp]
    rfl

/-- The line that opens a table, or one more table of a list. -/
def headerText (path : Path) (isElement : Bool) : String :=
  if isElement then "[[" ++ path.text ++ "]]\n" else "[" ++ path.text ++ "]\n"

theorem isLine_header {path : Path} (hp : path.length ≤ depthLimit) (isElement : Bool) :
    IsLine (headerText path isElement).toList (.header path isElement) := by
  have hreturn := carriageReturn_not_mem_path path
  have hpath (rest : List Char) :
      path? (path.text.toList ++ ']' :: rest) = some (path, ']' :: rest) :=
    path?_text hp (by rintro c ⟨⟩; decide)
      (by show some ']' ≠ some '.'; decide)
  cases isElement with
  | true =>
    refine ⟨⟨'[', by simp [headerText, String.toList_append], by decide⟩,
      by simp [headerText, String.toList_append, hreturn], fun rest => ?_⟩
    have htext : (headerText path true).toList ++ rest
        = '[' :: '[' :: (path.text.toList ++ ']' :: ']' :: '\n' :: rest) := by
      simp [headerText, String.toList_append]
    rw [htext, statement?.eq_1, hpath]
    rfl
  | false =>
    refine ⟨⟨'[', by simp [headerText, String.toList_append], by decide⟩,
      by simp [headerText, String.toList_append, hreturn], fun rest => ?_⟩
    have htext : (headerText path false).toList ++ rest
        = '[' :: (path.text.toList ++ ']' :: '\n' :: rest) := by
      simp [headerText, String.toList_append]
    obtain ⟨c, hc, _, _, hbracket⟩ := head?_path path (']' :: '\n' :: rest)
    have hopen (cs : List Char) (h : path.text.toList ++ ']' :: '\n' :: rest = '[' :: cs) :
        False := by
      rw [h] at hc
      cases hc
      exact hbracket rfl
    rw [htext, statement?.eq_2 _ hopen, hpath]
    rfl

end Statements

section Documents

/-- A text of lines that are read as statements, with line breaks between them. -/
inductive Transcript : List Char → List Statement → Prop
  | nil : Transcript [] []
  | line {text rest : List Char} {st : Statement} {sts : List Statement} :
    IsLine text st → Transcript rest sts → Transcript (text ++ rest) (st :: sts)
  | gap {rest : List Char} {sts : List Statement} :
    Transcript rest sts → Transcript ('\n' :: rest) sts

namespace Transcript
variable {cs : List Char} {sts : List Statement} (h : Transcript cs sts)
include h

theorem length_le : sts.length ≤ cs.length := by
  induction h with
  | nil => exact Nat.le_refl 0
  | @line text rest st sts hline _ ih =>
    obtain ⟨c, hc, _⟩ := hline.start
    have htext : 0 < text.length := by
      cases text with
      | nil => cases hc
      | cons c text => exact Nat.succ_pos _
    rw [List.length_append, List.length_cons]
    omega
  | gap _ ih => exact Nat.le_succ_of_le ih

theorem joinBreaks_eq : joinBreaks cs = cs := by
  have hreturn : '\r' ∉ cs := by
    induction h with
    | nil => simp
    | line hline _ ih => exact fun hmem => (List.mem_append.mp hmem).elim hline.unbroken ih
    | gap _ ih => simpa using ih
  clear h
  induction cs with
  | nil => rfl
  | cons c cs ih =>
    obtain ⟨hc, hcs⟩ := not_or.mp (List.mem_cons.not.mp hreturn)
    rw [joinBreaks.eq_2 c cs fun rest h _ => hc h.symm, ih hcs]

theorem head?_ne : cs.head? ≠ some '\ufeff' := by
  cases h with
  | nil => simp
  | line hline _ =>
    obtain ⟨c, hc, _, hbom⟩ := hline.start
    rw [List.head?_append, hc]
    simpa using hbom
  | gap _ => simp

theorem statements?_eq {count : Nat} (hcount : sts.length < count) :
    statements? count cs = some sts := by
  induction h generalizing count with
  | nil =>
    obtain ⟨count, rfl⟩ := Nat.exists_eq_succ_of_ne_zero (Nat.ne_of_gt hcount)
    rfl
  | @line text rest st sts hline _ ih =>
    obtain ⟨count, rfl⟩ := Nat.exists_eq_succ_of_ne_zero
      (Nat.ne_of_gt (Nat.zero_lt_of_lt hcount))
    obtain ⟨c, hc, hmark, _⟩ := hline.start
    have hhead : (text ++ rest).head? = some c := by rw [List.head?_append, hc, Option.some_or]
    have hskip : skipLines (text ++ rest).length (text ++ rest) = text ++ rest :=
      skipLines_of_mark (fun d hd => by rw [hhead] at hd; cases hd; exact hmark) _
    rw [statements?, hskip]
    split
    · next hnil =>
      rw [hnil] at hhead
      cases hhead
    · rw [hline.read rest]
      simp only [Option.bind_eq_bind, Option.bind_some, ih (Nat.lt_of_succ_lt_succ hcount)]
      rfl
  | @gap rest sts _ ih =>
    obtain ⟨count, rfl⟩ := Nat.exists_eq_succ_of_ne_zero
      (Nat.ne_of_gt (Nat.zero_lt_of_lt hcount))
    have hskip : skipLines ('\n' :: rest).length ('\n' :: rest)
        = skipLines rest.length rest := rfl
    rw [← ih hcount, statements?, statements?, hskip]

theorem document?_eq : document? cs = some (.ofStatements sts) := by
  rw [document?, h.statements?_eq (Nat.lt_succ_of_le h.length_le), Option.map_some]

end Transcript

def Section.statements (s : Section) : List Statement :=
  .header s.path s.isElement :: s.assignments.map .assign

/-- The lines of a document in order. -/
def Document.statements (d : Document) : List Statement :=
  d.assignments.map .assign ++ d.sections.flatMap Section.statements

theorem ofStatements_assignments (as : List Assignment) (sts : List Statement) :
    Document.ofStatements (as.map .assign ++ sts) =
      ⟨as ++ (Document.ofStatements sts).assignments, (Document.ofStatements sts).sections⟩ := by
  induction as with
  | nil => rfl
  | cons a as ih => rw [List.map_cons, List.cons_append, Document.ofStatements, ih]; rfl

theorem ofStatements_statements (d : Document) : Document.ofStatements d.statements = d := by
  have hsections (ss : List Section) :
      Document.ofStatements (ss.flatMap Section.statements) = ⟨[], ss⟩ := by
    induction ss with
    | nil => rfl
    | cons s ss ih =>
      rw [List.flatMap_cons, Section.statements, List.cons_append, Document.ofStatements,
        ofStatements_assignments, ih, List.append_nil]
  rw [Document.statements, ofStatements_assignments, hsections, List.append_nil]

/-- Every path is short enough to be read, and every value stands on its line. -/
structure Section.IsReadable (s : Section) : Prop where
  length_le : s.path.length ≤ depthLimit
  flat : ∀ a ∈ s.assignments, IsFlat a.value ∧ a.path.length ≤ depthLimit

structure Document.IsReadable (d : Document) : Prop where
  flat : ∀ a ∈ d.assignments, IsFlat a.value ∧ a.path.length ≤ depthLimit
  sections : ∀ s ∈ d.sections, s.IsReadable

theorem transcript_assignments {as : List Assignment}
    (has : ∀ a ∈ as, IsFlat a.value ∧ a.path.length ≤ depthLimit) {cs : List Char}
    {sts : List Statement} (h : Transcript cs sts) :
    Transcript ((String.join (as.map Assignment.text)).toList ++ cs) (as.map .assign ++ sts) := by
  rw [String.toList_join]
  induction as with
  | nil => exact h
  | cons a as ih =>
    obtain ⟨hv, hp⟩ := has a List.mem_cons_self
    rw [List.map_cons, List.flatMap_cons, List.append_assoc]
    exact .line (isLine_assignment hv hp) (ih fun b hb => has b (List.mem_cons_of_mem _ hb))

theorem transcript_section {s : Section} (hs : s.IsReadable) {cs : List Char}
    {sts : List Statement} (h : Transcript cs sts) :
    Transcript (s.text.toList ++ cs) (s.statements ++ sts) := by
  have htext : s.text.toList ++ cs = (headerText s.path s.isElement).toList ++
      ((String.join (s.assignments.map Assignment.text)).toList ++ cs) := by
    rw [Section.text, headerText, String.toList_append, List.append_assoc]
  rw [htext]
  exact .line (isLine_header hs.length_le _) (transcript_assignments hs.flat h)

/-- Sections with a line break between them. -/
theorem transcript_sections {s : Section} {ss : List Section}
    (hs : ∀ t ∈ s :: ss, t.IsReadable) :
    Transcript ("\n".toList.intercalate ((s :: ss).map fun t => t.text.toList))
      ((s :: ss).flatMap Section.statements) := by
  induction ss generalizing s with
  | nil =>
    have h := transcript_section (hs s List.mem_cons_self) .nil
    simpa using h
  | cons t ss ih =>
    rw [List.map_cons, List.map_cons, List.intercalate_cons_cons, List.append_assoc,
      List.flatMap_cons]
    exact transcript_section (hs s List.mem_cons_self)
      (.gap (ih fun u hu => hs u (List.mem_cons_of_mem _ hu)))

theorem transcript_text {d : Document} (hd : d.IsReadable) :
    Transcript d.text.toList d.statements := by
  have hopening := fun {cs : List Char} {sts : List Statement} (h : Transcript cs sts) =>
    transcript_assignments hd.flat h
  rw [Document.text, Document.statements, String.toList_intercalate]
  cases has : d.assignments with
  | nil =>
    cases hss : d.sections with
    | nil => exact .nil
    | cons s ss =>
      have h := transcript_sections fun t ht => hd.sections t (hss ▸ ht)
      simpa [Function.comp_def] using h
  | cons a as =>
    rw [has] at hopening
    cases hss : d.sections with
    | nil =>
      have h := hopening .nil
      simpa using h
    | cons s ss =>
      have h := transcript_sections fun t ht => hd.sections t (hss ▸ ht)
      have h' := hopening (.gap h)
      simpa [Function.comp_def] using h'

/-- The text of a document is read as the document. -/
theorem document?_text {d : Document} (hd : d.IsReadable) :
    document? d.text.toList = some d := by
  rw [(transcript_text hd).document?_eq, ofStatements_statements]

theorem read?_text {d : Document} (hd : d.IsReadable) : read? d.text = d.toValue? := by
  have htranscript := transcript_text hd
  unfold read?
  split
  · next hcs => exact absurd (by rw [hcs, List.head?_cons]) htranscript.head?_ne
  · simp only [htranscript.joinBreaks_eq, document?_text hd]
    rfl

end Documents

end ActorLinks.Toml
