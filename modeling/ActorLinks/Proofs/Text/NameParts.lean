import ActorLinks.Text.Name
import Mathlib

/-! # The parts of a name

A name is laid out as words with gaps before them. A gap holds what is no ASCII letter or digit; in
a word only the first character may be a capital; and a word that directly follows another one
starts with a capital, so that the two could not be one. Each name has one such layout, and the
words of it are the parts of the name.
-/
namespace ActorLinks.Text

section Characters
variable {c : Char}

theorem isWordStart_eq (c : Char) : isWordStart c = c.isUpper := by
  rw [Bool.eq_iff_iff]
  simp [isWordStart, Char.isUpper, Char.le_def]

/-- The ranges of capitals, of small letters and of digits do not overlap. -/
theorem isWordRest_eq (c : Char) : isWordRest c = (c.isAlphanum && !c.isUpper) := by
  have hcapital : 'A'.val.toNat = 65 ∧ 'Z'.val.toNat = 90 := ⟨rfl, rfl⟩
  have hsmall : 'a'.val.toNat = 97 ∧ 'z'.val.toNat = 122 := ⟨rfl, rfl⟩
  have hdigit : '0'.val.toNat = 48 ∧ '9'.val.toNat = 57 := ⟨rfl, rfl⟩
  rw [Bool.eq_iff_iff]
  simp only [isWordRest, Char.isAlphanum, Char.isAlpha, Char.isUpper, Char.isLower, Char.isDigit,
    Char.le_def, UInt32.le_iff_toNat_le, Bool.and_eq_true, Bool.or_eq_true, Bool.not_eq_true',
    decide_eq_true_eq, decide_eq_false_iff_not, ge_iff_le]
  omega

theorem isAlphanum_of_isUpper (h : c.isUpper = true) : c.isAlphanum = true := by
  rw [Char.isAlphanum, Char.isAlpha, h]
  rfl

theorem isAlphanum_eq_false_iff :
    c.isAlphanum = false ↔ isWordStart c = false ∧ isWordRest c = false := by
  rw [isWordStart_eq, isWordRest_eq]
  cases hc : c.isUpper with
  | true => simp [isAlphanum_of_isUpper hc]
  | false => simp

end Characters

section Reading
variable {c : Char} {word run gap cs tail : List Char}

theorem wordsFrom_of_isUpper (h : c.isUpper = true) :
    wordsFrom word (c :: cs) = closeWord word ++ wordsFrom [c] cs := by
  rw [wordsFrom, isWordStart_eq, if_pos h]

theorem wordsFrom_of_rest (h : c.isAlphanum = true) (hc : c.isUpper = false) :
    wordsFrom word (c :: cs) = wordsFrom (word ++ [c]) cs := by
  rw [wordsFrom, isWordStart_eq, isWordRest_eq, h, hc]
  rfl

theorem wordsFrom_of_leftOut (h : c.isAlphanum = false) :
    wordsFrom word (c :: cs) = closeWord word ++ wordsFrom [] cs := by
  have hc : c.isUpper = false :=
    Bool.eq_false_iff.mpr fun hc => by simp [isAlphanum_of_isUpper hc] at h
  rw [wordsFrom, isWordStart_eq, isWordRest_eq, h, hc]
  rfl

theorem wordsFrom_gap (h : ∀ c ∈ gap, c.isAlphanum = false) :
    wordsFrom [] (gap ++ tail) = wordsFrom [] tail := by
  induction gap with
  | nil => rfl
  | cons c gap ih =>
    obtain ⟨hc, hgap⟩ := List.forall_mem_cons.mp h
    rw [List.cons_append, wordsFrom_of_leftOut hc, ih hgap]
    rfl

theorem wordsFrom_first (h : c.isAlphanum = true) : wordsFrom [] (c :: cs) = wordsFrom [c] cs := by
  cases hc : c.isUpper with
  | true =>
    rw [wordsFrom_of_isUpper hc]
    rfl
  | false => exact wordsFrom_of_rest h hc

theorem wordsFrom_run (h : ∀ c ∈ run, c.isAlphanum = true ∧ c.isUpper = false) :
    wordsFrom word (run ++ tail) = wordsFrom (word ++ run) tail := by
  induction run generalizing word with
  | nil => rw [List.nil_append, List.append_nil]
  | cons c run ih =>
    obtain ⟨⟨hkept, hc⟩, hrun⟩ := List.forall_mem_cons.mp h
    rw [List.cons_append, wordsFrom_of_rest hkept hc, ih hrun, List.append_assoc,
      List.singleton_append]

/-- A word ends before a capital, before what is left out and at the end of the name. -/
theorem wordsFrom_closed (hword : word ≠ [])
    (h : ∀ c ∈ tail.head?, c.isAlphanum = true → c.isUpper = true) :
    wordsFrom word tail = word :: wordsFrom [] tail := by
  have hclose : closeWord word = [word] := by simp [closeWord, hword]
  cases tail with
  | nil => exact hclose
  | cons c cs =>
    cases hkept : c.isAlphanum with
    | false =>
      rw [wordsFrom_of_leftOut hkept, wordsFrom_of_leftOut hkept, hclose]
      rfl
    | true =>
      have hc : c.isUpper = true := h c rfl hkept
      rw [wordsFrom_of_isUpper hc, wordsFrom_of_isUpper hc, hclose]
      rfl

end Reading

/-- What can be a word: ASCII letters and digits of which at most the first is a capital. -/
structure IsPiece (cs : List Char) : Prop where
  ne_nil : cs ≠ []
  kept : ∀ c ∈ cs, c.isAlphanum = true
  small : ∀ c ∈ cs.tail, c.isUpper = false

/-- A word of a name and the gap before it. -/
structure Token where
  gap : List Char
  first : Char
  rest : List Char
  gap_left_out : ∀ c ∈ gap, c.isAlphanum = false
  first_kept : first.isAlphanum = true
  rest_kept : ∀ c ∈ rest, c.isAlphanum = true ∧ c.isUpper = false

namespace Token

def word (t : Token) : List Char := t.first :: t.rest

def chars (t : Token) : List Char := t.gap ++ t.word

variable {t : Token} {tail : List Char}

theorem isPiece_word (t : Token) : IsPiece t.word where
  ne_nil := List.cons_ne_nil _ _
  kept := List.forall_mem_cons.mpr ⟨t.first_kept, fun c hc => (t.rest_kept c hc).1⟩
  small c hc := (t.rest_kept c hc).2

theorem wordsFrom_chars (t : Token)
    (h : ∀ c ∈ tail.head?, c.isAlphanum = true → c.isUpper = true) :
    wordsFrom [] (t.chars ++ tail) = t.word :: wordsFrom [] tail := by
  rw [chars, List.append_assoc, wordsFrom_gap t.gap_left_out, word, List.cons_append,
    wordsFrom_first t.first_kept, wordsFrom_run t.rest_kept]
  exact wordsFrom_closed (List.cons_ne_nil _ _) h

theorem filter_chars (t : Token) : t.chars.filter Char.isAlphanum = t.word := by
  have hgap : t.gap.filter Char.isAlphanum = [] :=
    List.filter_eq_nil_iff.mpr fun c hc => by simp [t.gap_left_out c hc]
  have hrest : t.rest.filter Char.isAlphanum = t.rest :=
    List.filter_eq_self.mpr fun c hc => (t.rest_kept c hc).1
  rw [chars, List.filter_append, hgap, word, List.filter_cons_of_pos t.first_kept, hrest]
  rfl

end Token

/-- A name laid out as words with gaps before them and one gap at the end. -/
structure Layout (cs : List Char) where
  tokens : List Token
  ending : List Char
  chars_eq : tokens.flatMap Token.chars ++ ending = cs
  ending_left_out : ∀ c ∈ ending, c.isAlphanum = false
  capital : ∀ t ∈ tokens.tail, t.gap = [] → t.first.isUpper = true

/-- What follows a word does not go on with it. -/
theorem capital_head {ts : List Token} {ending : List Char}
    (hts : ∀ t ∈ ts, t.gap = [] → t.first.isUpper = true)
    (hending : ∀ c ∈ ending, c.isAlphanum = false) :
    ∀ c ∈ (ts.flatMap Token.chars ++ ending).head?, c.isAlphanum = true → c.isUpper = true := by
  intro c hc hkept
  cases ts with
  | nil =>
    have hleft := hending c (List.mem_of_mem_head? hc)
    simp [hkept] at hleft
  | cons t ts =>
    rw [List.flatMap_cons, Token.chars] at hc
    cases hgap : t.gap with
    | nil =>
      rw [hgap] at hc
      obtain rfl := Option.some.inj hc
      exact hts t List.mem_cons_self hgap
    | cons d gap =>
      rw [hgap] at hc
      obtain rfl := Option.some.inj hc
      have hleft := t.gap_left_out d (hgap ▸ List.mem_cons_self)
      simp [hkept] at hleft

theorem wordsFrom_tokens {ts : List Token} {ending : List Char}
    (hts : ∀ t ∈ ts.tail, t.gap = [] → t.first.isUpper = true)
    (hending : ∀ c ∈ ending, c.isAlphanum = false) :
    wordsFrom [] (ts.flatMap Token.chars ++ ending) = ts.map Token.word := by
  induction ts with
  | nil =>
    rw [List.flatMap_nil, List.nil_append, ← List.append_nil ending, wordsFrom_gap hending]
    rfl
  | cons t ts ih =>
    have hnext : ∀ c ∈ (ts.flatMap Token.chars ++ ending).head?,
        c.isAlphanum = true → c.isUpper = true := capital_head hts hending
    rw [List.flatMap_cons, List.append_assoc, t.wordsFrom_chars hnext,
      ih fun u hu => hts u (List.mem_of_mem_tail hu), List.map_cons]

namespace Layout
variable {cs : List Char}

/-- No word of the layout is a part of a longer piece of the name. -/
def IsMaximal (l : Layout cs) : Prop :=
  ∀ before t after, l.tokens = before ++ t :: after → ∀ x y,
    x <:+ before.flatMap Token.chars ++ t.gap → y <+: after.flatMap Token.chars ++ l.ending →
    IsPiece (x ++ (t.word ++ y)) → x = [] ∧ y = []

/-- The words of a layout, in their order. -/
def words (l : Layout cs) : List String := l.tokens.map fun t => String.ofList t.word

section Maximal
variable {l : Layout cs} {before after : List Token} {t : Token} {x y : List Char}

/-- In front of a word something is left out, or the word starts with a capital. -/
theorem eq_nil_of_front (htokens : l.tokens = before ++ t :: after)
    (hx : x <:+ before.flatMap Token.chars ++ t.gap) (hpiece : IsPiece (x ++ (t.word ++ y))) :
    x = [] := by
  by_contra hne
  cases hgap : t.gap with
  | nil =>
    cases before with
    | nil => exact hne (List.suffix_nil.mp (by simpa [hgap] using hx))
    | cons u before =>
      have hcapital : t.first.isUpper = true := l.capital t (by simp [htokens]) hgap
      have hsmall : t.first.isUpper = false := hpiece.small _ (by
        rw [List.tail_append_of_ne_nil hne]
        simp [Token.word])
      simp [hsmall] at hcapital
  | cons c gap =>
    have hlast : x.getLast hne ∈ t.gap := by
      rw [hx.getLast hne, List.getLast_append_of_right_ne_nil _ _ (by simp [hgap])]
      exact List.getLast_mem _
    have hkept := hpiece.kept _ (List.mem_append_left _ (List.getLast_mem hne))
    simp [t.gap_left_out _ hlast] at hkept

/-- Behind a word something is left out, or the next word starts with a capital. -/
theorem eq_nil_of_back (htokens : l.tokens = before ++ t :: after)
    (hy : y <+: after.flatMap Token.chars ++ l.ending) (hpiece : IsPiece (x ++ (t.word ++ y))) :
    y = [] := by
  cases y with
  | nil => rfl
  | cons c y =>
    have hlater : ∀ u ∈ after, u.gap = [] → u.first.isUpper = true := by
      intro u hu
      refine l.capital u ?_
      rw [htokens]
      cases before <;> simp [hu]
    have hhead : c ∈ (after.flatMap Token.chars ++ l.ending).head? := by
      obtain ⟨more, hmore⟩ := hy
      rw [← hmore]
      rfl
    have hmem : c ∈ (x ++ (t.word ++ c :: y)).tail := by
      cases x <;> simp [Token.word]
    have hcapital := capital_head hlater l.ending_left_out c hhead
      (hpiece.kept c (List.mem_of_mem_tail hmem))
    simp [hpiece.small c hmem] at hcapital

theorem isMaximal (l : Layout cs) : l.IsMaximal := fun _ _ _ htokens _ _ hx hy hpiece =>
  ⟨eq_nil_of_front htokens hx hpiece, eq_nil_of_back htokens hy hpiece⟩

end Maximal

/-- A character goes to the first gap, makes a word, or is the new first one of the first word. -/
theorem exists_cons (c : Char) (l : Layout cs) : Nonempty (Layout (c :: cs)) := by
  obtain ⟨tokens, ending, rfl, hending, hcapital⟩ := l
  cases hc : c.isAlphanum with
  | false =>
    cases tokens with
    | nil => exact ⟨[], c :: ending, rfl, List.forall_mem_cons.mpr ⟨hc, hending⟩, hcapital⟩
    | cons t ts =>
      exact ⟨⟨c :: t.gap, t.first, t.rest, List.forall_mem_cons.mpr ⟨hc, t.gap_left_out⟩,
        t.first_kept, t.rest_kept⟩ :: ts, ending, rfl, hending, hcapital⟩
  | true =>
    have hnew (hts : ∀ t ∈ tokens, t.gap = [] → t.first.isUpper = true) :
        Layout (c :: (tokens.flatMap Token.chars ++ ending)) :=
      ⟨⟨[], c, [], by simp, hc, by simp⟩ :: tokens, ending, rfl, hending, hts⟩
    cases tokens with
    | nil => exact ⟨hnew (by simp)⟩
    | cons t ts =>
      by_cases hjoin : t.gap = [] ∧ t.first.isUpper = false
      · obtain ⟨hgap, hfirst⟩ := hjoin
        refine ⟨⟨[], c, t.word, by simp, hc, List.forall_mem_cons.mpr
          ⟨⟨t.first_kept, hfirst⟩, t.rest_kept⟩⟩ :: ts, ending, ?_, hending, hcapital⟩
        simp [Token.chars, Token.word, hgap]
      · refine ⟨hnew (List.forall_mem_cons.mpr ⟨fun hgap => ?_, hcapital⟩)⟩
        simpa using fun hfirst => hjoin ⟨hgap, hfirst⟩

theorem exists_layout (cs : List Char) : Nonempty (Layout cs) := by
  induction cs with
  | nil => exact ⟨[], [], rfl, by simp, by simp⟩
  | cons c cs ih => exact ih.elim (exists_cons c)

theorem nameParts_eq {name : String} (l : Layout name.toList) : nameParts name = l.words := by
  have hwords : wordsFrom [] name.toList = l.tokens.map Token.word :=
    (congrArg (wordsFrom []) l.chars_eq).symm.trans
      (wordsFrom_tokens l.capital l.ending_left_out)
  rw [nameParts, hwords, List.map_map]
  rfl

theorem toList_join_words (l : Layout cs) :
    (String.join l.words).toList = cs.filter Char.isAlphanum := by
  have hending : l.ending.filter Char.isAlphanum = [] :=
    List.filter_eq_nil_iff.mpr fun c hc => by simp [l.ending_left_out c hc]
  have hchars : l.tokens.flatMap Token.word = cs.filter Char.isAlphanum := by
    refine Eq.trans ?_ (congrArg (List.filter Char.isAlphanum) l.chars_eq)
    rw [List.filter_append, hending, List.append_nil, List.filter_flatMap]
    simp only [Token.filter_chars]
  rw [← hchars, String.toList_join, words, List.flatMap_map]
  simp only [String.toList_ofList]

end Layout

theorem toList_join_nameParts (name : String) :
    (String.join (nameParts name)).toList = name.toList.filter Char.isAlphanum := by
  obtain ⟨l⟩ := Layout.exists_layout name.toList
  rw [l.nameParts_eq, l.toList_join_words]

theorem isPiece_of_mem_nameParts {name part : String} (h : part ∈ nameParts name) :
    IsPiece part.toList := by
  obtain ⟨l⟩ := Layout.exists_layout name.toList
  rw [l.nameParts_eq] at h
  obtain ⟨t, _, rfl⟩ := List.mem_map.mp h
  rw [String.toList_ofList]
  exact t.isPiece_word

theorem ne_empty_of_mem_nameParts {name part : String} (h : part ∈ nameParts name) :
    part ≠ "" := by
  rintro rfl
  exact (isPiece_of_mem_nameParts h).ne_nil rfl

/-- The parts of a name join to its ASCII letters and digits, and at most the first character of a
part is a capital. They are the words of a layout of the name, and of no other: a part starts with a
capital, after something left out, or with the name. So none is a part of a longer piece. -/
theorem nameParts_layout (name : String) :
    (String.join (nameParts name)).toList = name.toList.filter Char.isAlphanum ∧
    (∀ part ∈ nameParts name, IsPiece part.toList) ∧
    (∀ parts, parts = nameParts name ↔ ∃ l : Layout name.toList, parts = l.words) ∧
    ∀ l : Layout name.toList, l.IsMaximal := by
  refine ⟨toList_join_nameParts name, fun _ => isPiece_of_mem_nameParts,
    fun parts => ⟨?_, ?_⟩, Layout.isMaximal⟩
  · rintro rfl
    obtain ⟨l⟩ := Layout.exists_layout name.toList
    exact ⟨l, l.nameParts_eq⟩
  · rintro ⟨l, rfl⟩
    exact l.nameParts_eq.symm

example : nameParts "DMChannel_v2" = ["D", "M", "Channel", "v2"] := by decide

end ActorLinks.Text
