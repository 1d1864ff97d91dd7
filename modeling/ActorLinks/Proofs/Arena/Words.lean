import ActorLinks.Proofs.Text.Names
import ActorLinks.Schematic
import Mathlib

/-! # Words of names

Names that are put together from marked parts can be taken apart again. A word starts with an
upper-case letter and goes on with lower-case letters and digits, so words that stand one after the
other are read off their text; so are the type parameters that stand in angle brackets, separated by
commas, after a name. The part that a link type adds to a name is a word: its kind and, if there are
any, the number of its type parameters.
-/
namespace ActorLinks

section Text
variable {mark : Char → Bool}

/-- The mark stands at the start of the word and nowhere else in it. -/
def Marked (mark : Char → Bool) (word : List Char) : Prop :=
  ∃ c cs, word = c :: cs ∧ mark c = true ∧ ∀ d ∈ cs, mark d = false

theorem append_inj_of_mark {p q s t : List Char} (hp : ∀ c ∈ p, mark c = false)
    (hq : ∀ c ∈ q, mark c = false) (hs : ∀ c ∈ s.head?, mark c = true)
    (ht : ∀ c ∈ t.head?, mark c = true) (h : p ++ s = q ++ t) : p = q ∧ s = t := by
  have hcut {x y : List Char} (hx : ∀ c ∈ x, mark c = false) (hy : ∀ c ∈ y.head?, mark c = true) :
      (x ++ y).takeWhile (fun c => !mark c) = x := by
    rw [List.takeWhile_append_of_pos fun c hc => by rw [hx c hc]; rfl]
    cases y with
    | nil => rw [List.takeWhile_nil, List.append_nil]
    | cons c cs => rw [List.takeWhile_cons_of_neg (by simp [hy c rfl]), List.append_nil]
  obtain rfl : p = q := by rw [← hcut hp hs, h, hcut hq ht]
  exact ⟨rfl, List.append_cancel_left h⟩

theorem head?_flatten {words : List (List Char)} (h : ∀ w ∈ words, Marked mark w) :
    ∀ c ∈ words.flatten.head?, mark c = true := by
  cases words with
  | nil => exact nofun
  | cons w ws =>
    obtain ⟨c, cs, rfl, hc, _⟩ := h w List.mem_cons_self
    rintro d hd
    cases hd
    exact hc

theorem flatten_inj {xs ys : List (List Char)} (hx : ∀ w ∈ xs, Marked mark w)
    (hy : ∀ w ∈ ys, Marked mark w) (h : xs.flatten = ys.flatten) : xs = ys := by
  induction xs generalizing ys with
  | nil =>
    cases ys with
    | nil => rfl
    | cons y ys =>
      obtain ⟨d, ds, rfl, _⟩ := hy y List.mem_cons_self
      cases h
  | cons x xs ih =>
    obtain ⟨c, cs, rfl, _, hcs⟩ := hx x List.mem_cons_self
    cases ys with
    | nil => cases h
    | cons y ys =>
      obtain ⟨d, ds, rfl, _, hds⟩ := hy y List.mem_cons_self
      have hxs : ∀ w ∈ xs, Marked mark w := fun w hw => hx w (List.mem_cons_of_mem _ hw)
      have hys : ∀ w ∈ ys, Marked mark w := fun w hw => hy w (List.mem_cons_of_mem _ hw)
      obtain ⟨rfl, htail⟩ := List.cons.inj h
      obtain ⟨rfl, hrest⟩ :=
        append_inj_of_mark hcs hds (head?_flatten hxs) (head?_flatten hys) htail
      rw [ih hxs hys hrest]

theorem intercalate_cons (sep x : List Char) (xs : List (List Char)) :
    sep.intercalate (x :: xs) = x ++ (xs.map (sep ++ ·)).flatten := by
  induction xs generalizing x with
  | nil => simp [List.intercalate]
  | cons y ys ih => simpa [List.intercalate] using ih y

theorem intercalate_inj {ps qs : List String} (hp : ∀ p ∈ ps, ',' ∉ p.toList)
    (hq : ∀ q ∈ qs, ',' ∉ q.toList) (hps : ps ≠ []) (hqs : qs ≠ [])
    (h : ", ".intercalate ps = ", ".intercalate qs) : ps = qs := by
  have hfree {s : String} (hs : ',' ∉ s.toList) : ∀ c ∈ s.toList, (c == ',') = false := by
    intro c hc
    refine beq_eq_false_iff_ne.mpr ?_
    rintro rfl
    exact hs hc
  have hmarked {ss : List String} (hss : ∀ s ∈ ss, ',' ∉ s.toList) :
      ∀ w ∈ (ss.map String.toList).map (", ".toList ++ ·), Marked (· == ',') w := by
    intro w hw
    obtain ⟨v, hv, rfl⟩ := List.mem_map.mp hw
    obtain ⟨s, hs, rfl⟩ := List.mem_map.mp hv
    refine ⟨',', ' ' :: s.toList, rfl, rfl, fun d hd => ?_⟩
    rcases List.mem_cons.mp hd with rfl | hd
    · rfl
    · exact hfree (hss s hs) d hd
  obtain ⟨p, ps, rfl⟩ := List.exists_cons_of_ne_nil hps
  obtain ⟨q, qs, rfl⟩ := List.exists_cons_of_ne_nil hqs
  have hp' := hmarked fun s hs => hp s (List.mem_cons_of_mem _ hs)
  have hq' := hmarked fun s hs => hq s (List.mem_cons_of_mem _ hs)
  replace h := congrArg String.toList h
  rw [String.toList_intercalate, String.toList_intercalate, List.map_cons, List.map_cons,
    intercalate_cons, intercalate_cons] at h
  -- a comma marks where a text ends, so the first texts agree, and then the marked rest does
  obtain ⟨hhead, htail⟩ := append_inj_of_mark (hfree (hp p List.mem_cons_self))
    (hfree (hq q List.mem_cons_self)) (head?_flatten hp') (head?_flatten hq') h
  have hrest := flatten_inj hp' hq' htail
  rw [String.toList_inj.mp hhead]
  congr 1
  exact List.map_injective_iff.mpr (fun _ _ => String.toList_inj.mp)
    (List.map_injective_iff.mpr (fun _ _ => List.append_cancel_left) hrest)

theorem toList_withTypeParameters (m : String) (ps : List String) :
    (withTypeParameters m ps).toList = m.toList ++ if ps.isEmpty then []
      else '<' :: (", ".intercalate ps ++ ">").toList := by
  unfold withTypeParameters
  split
  · rw [List.append_nil]
  · simp

/-- A name without type arguments is read off again, with what follows it. -/
theorem eq_of_withTypeParameters {m n : String} {ps qs : List String} (hm : '<' ∉ m.toList)
    (hn : '<' ∉ n.toList) (h : withTypeParameters m ps = withTypeParameters n qs) :
    m = n ∧ (if ps.isEmpty then [] else '<' :: (", ".intercalate ps ++ ">").toList)
      = if qs.isEmpty then [] else '<' :: (", ".intercalate qs ++ ">").toList := by
  have hfree {s : String} (hs : '<' ∉ s.toList) : ∀ c ∈ s.toList, (c == '<') = false := by
    intro c hc
    refine beq_eq_false_iff_ne.mpr ?_
    rintro rfl
    exact hs hc
  have hhead (ss : List String) : ∀ c ∈ (if ss.isEmpty then []
      else '<' :: (", ".intercalate ss ++ ">").toList).head?, (c == '<') = true := by
    split
    · exact nofun
    · intro c hc
      cases hc
      rfl
  replace h := congrArg String.toList h
  rw [toList_withTypeParameters, toList_withTypeParameters] at h
  obtain ⟨hname, hrest⟩ := append_inj_of_mark (hfree hm) (hfree hn) (hhead ps) (hhead qs) h
  exact ⟨String.toList_inj.mp hname, hrest⟩

/-- Names without type arguments, and type arguments without commas, are read off again. -/
theorem withTypeParameters_inj {m n : String} {ps qs : List String} (hm : '<' ∉ m.toList)
    (hn : '<' ∉ n.toList) (hps : ∀ p ∈ ps, ',' ∉ p.toList) (hqs : ∀ q ∈ qs, ',' ∉ q.toList)
    (h : withTypeParameters m ps = withTypeParameters n qs) : m = n ∧ ps = qs := by
  obtain ⟨hname, hrest⟩ := eq_of_withTypeParameters hm hn h
  refine ⟨hname, ?_⟩
  cases ps with
  | nil =>
    cases qs with
    | nil => rfl
    | cons q qs => cases hrest
  | cons p ps =>
    cases qs with
    | nil => cases hrest
    | cons q qs =>
      have hsame := String.toList_inj.mp (List.cons.inj hrest).2
      exact intercalate_inj hps hqs (List.cons_ne_nil _ _) (List.cons_ne_nil _ _)
        (String.append_left_inj _ |>.mp hsame)

theorem withTypeParameters_left_inj {m n : String} {ps : List String} :
    withTypeParameters m ps = withTypeParameters n ps ↔ m = n := by
  unfold withTypeParameters
  split
  · rfl
  · rw [String.append_left_inj, String.append_left_inj, String.append_left_inj]

theorem exists_withTypeParameters (m : String) (ps : List String) :
    ∃ tail, withTypeParameters m ps = m ++ tail := by
  unfold withTypeParameters
  split
  · exact ⟨"", String.append_empty.symm⟩
  · exact ⟨"<" ++ (", ".intercalate ps ++ ">"), by simp only [String.append_assoc]⟩

theorem mem_of_mem_eraseWord {word cs : List Char} {skip : Nat} {c : Char}
    (h : c ∈ Text.eraseWord word skip cs) : c ∈ cs := by
  induction cs generalizing skip with
  | nil => exact h
  | cons d cs ih =>
    unfold Text.eraseWord at h
    split at h
    · exact List.mem_cons_of_mem _ (ih h)
    · split at h
      · exact List.mem_cons_of_mem _ (ih h)
      · rcases List.mem_cons.mp h with rfl | h
        · exact List.mem_cons_self
        · exact List.mem_cons_of_mem _ (ih h)

/-- The last segment of a name has no type arguments, whatever is left out of it. -/
theorem lt_not_mem_erase_simpleName (word name : String) :
    '<' ∉ (Text.erase word (Text.simpleName name)).toList := by
  intro h
  rw [Text.erase, String.toList_ofList] at h
  exact Text.lt_not_mem_simpleName name (mem_of_mem_eraseWord h)

/-- An upper-case letter followed by lower-case letters and digits. -/
def isWord (w : String) : Bool :=
  match w.toList with
  | c :: cs => c.isUpper && cs.all fun d => d.isLower || d.isDigit
  | [] => false

theorem isWord_iff {w : String} : isWord w = true ↔
    ∃ c cs, w.toList = c :: cs ∧ c.isUpper = true ∧
      ∀ d ∈ cs, d.isLower = true ∨ d.isDigit = true := by
  unfold isWord
  cases w.toList <;> simp

theorem isUpper_eq_false {c : Char} (h : c.isLower = true ∨ c.isDigit = true) :
    c.isUpper = false := by
  simp only [Char.isLower, Char.isDigit, Char.isUpper, Bool.and_eq_true, decide_eq_true_eq,
    decide_eq_false_iff_not, ge_iff_le, UInt32.le_iff_toNat_le] at h ⊢
  simp at h ⊢
  omega

theorem marked_of_isWord {w : String} (h : isWord w = true) : Marked Char.isUpper w.toList := by
  obtain ⟨c, cs, hw, hc, hcs⟩ := isWord_iff.mp h
  exact ⟨c, cs, hw, hc, fun d hd => isUpper_eq_false (hcs d hd)⟩

theorem lt_not_mem_of_isWord {w : String} (h : isWord w = true) : '<' ∉ w.toList := by
  obtain ⟨c, cs, hw, hc, hcs⟩ := isWord_iff.mp h
  rw [hw]
  rintro hmem
  rcases List.mem_cons.mp hmem with rfl | hmem
  · cases hc
  · rcases hcs _ hmem with hd | hd
    · cases hd
    · cases hd

theorem lt_not_mem_join {ws : List String} (h : ∀ w ∈ ws, isWord w = true) :
    '<' ∉ (String.join ws).toList := by
  rw [String.toList_join]
  intro hlt
  obtain ⟨w, hw, hlt⟩ := List.mem_flatMap.mp hlt
  exact lt_not_mem_of_isWord (h w hw) hlt

theorem isWord_append {w s : String} (hw : isWord w = true)
    (hs : ∀ c ∈ s.toList, c.isDigit = true) : isWord (w ++ s) = true := by
  obtain ⟨c, cs, hw, hc, hcs⟩ := isWord_iff.mp hw
  refine isWord_iff.mpr ⟨c, cs ++ s.toList, by rw [String.toList_append, hw]; rfl, hc, ?_⟩
  intro d hd
  rcases List.mem_append.mp hd with hd | hd
  · exact hcs d hd
  · exact Or.inr (hs d hd)

theorem join_inj_of_words {xs ys : List String} (hx : ∀ w ∈ xs, isWord w = true)
    (hy : ∀ w ∈ ys, isWord w = true) (h : String.join xs = String.join ys) : xs = ys := by
  have hmarked {ws : List String} (hws : ∀ w ∈ ws, isWord w = true) :
      ∀ w ∈ ws.map String.toList, Marked Char.isUpper w :=
    List.forall_mem_map.mpr fun w hw => marked_of_isWord (hws w hw)
  replace h := congrArg String.toList h
  rw [String.toList_join, String.toList_join, List.flatMap_def, List.flatMap_def] at h
  exact List.map_injective_iff.mpr (fun _ _ => String.toList_inj.mp)
    (flatten_inj (hmarked hx) (hmarked hy) h)

end Text

namespace Schematic.Entry
variable {e f : Entry} {k l : LinkKind}

theorem name_of_kind? (h : e.kind? = some k) : e.name = k.name := by
  have hname := List.find?_some h
  exact (beq_iff_eq.mp hname).symm

/-- The number of type parameters, if there are any. -/
def arity (e : Entry) : String :=
  if e.typeParameters.isEmpty then "" else toString e.typeParameters.length

theorem classSegment_eq (e : Entry) : e.classSegment = e.name ++ e.arity := by
  unfold classSegment arity
  split
  · rw [String.append_empty]
  · rfl

theorem isDigit_of_mem_arity {c : Char} (h : c ∈ e.arity.toList) : c.isDigit = true := by
  unfold arity at h
  split at h
  · cases h
  · have hdigit : c ∈ Nat.toDigits 10 e.typeParameters.length := by simpa using h
    exact Nat.isDigit_of_mem_toDigits (by decide) (by decide) hdigit

theorem length_eq_of_arity (h : e.arity = f.arity) :
    e.typeParameters.length = f.typeParameters.length := by
  have hne (n : Nat) : toString n ≠ "" := by simp
  unfold arity at h
  cases he : e.typeParameters with
  | nil =>
    cases hf : f.typeParameters with
    | nil => rfl
    | cons q qs =>
      rw [he, hf] at h
      exact absurd h.symm (hne _)
  | cons p ps =>
    cases hf : f.typeParameters with
    | nil =>
      rw [he, hf] at h
      exact absurd h (hne _)
    | cons q qs =>
      rw [he, hf] at h
      exact Nat.repr_inj.mp h

theorem isWord_classSegment (h : e.kind? = some k) : isWord e.classSegment = true := by
  rw [classSegment_eq, name_of_kind? h]
  exact isWord_append (by cases k <;> decide) fun _ => isDigit_of_mem_arity

/-- The name and the number of type parameters are read off the segment. -/
theorem classSegment_inj (he : e.kind? = some k) (hf : f.kind? = some l)
    (h : e.classSegment = f.classSegment) :
    e.name = f.name ∧ e.typeParameters.length = f.typeParameters.length := by
  have hletters (m : LinkKind) : ∀ c ∈ m.name.toList, c.isDigit = false := by
    have hall : (m.name.toList.all fun c => !c.isDigit) = true := by cases m <;> decide
    simpa using hall
  have hdigits {d : Entry} : ∀ c ∈ d.arity.toList.head?, c.isDigit = true := fun c hc =>
    isDigit_of_mem_arity (List.mem_of_mem_head? hc)
  rw [classSegment_eq, classSegment_eq] at h
  replace h := congrArg String.toList h
  rw [String.toList_append, String.toList_append] at h
  obtain ⟨hname, harity⟩ := append_inj_of_mark
    (by rw [name_of_kind? he]; exact hletters k) (by rw [name_of_kind? hf]; exact hletters l)
    hdigits hdigits h
  exact ⟨String.toList_inj.mp hname, length_eq_of_arity (String.toList_inj.mp harity)⟩

/-- How the segments of link types start, whatever the kind, and how the hierarchy does. -/
def starts : List (Char × Char) := [('D', 'e'), ('E', 'n'), ('I', 'n'), ('P', 'a')]

theorem exists_start (h : e.kind? = some k) :
    ∃ c d cs, e.classSegment.toList = c :: d :: cs ∧ (c, d) ∈ starts := by
  have hname : ∃ c d cs, k.name.toList = c :: d :: cs ∧ (c, d) ∈ starts := by
    cases k <;> exact ⟨_, _, _, rfl, by decide⟩
  obtain ⟨c, d, cs, hcs, hstart⟩ := hname
  refine ⟨c, d, cs ++ e.arity.toList, ?_, hstart⟩
  rw [classSegment_eq, name_of_kind? h, String.toList_append, hcs]
  rfl

theorem getLast?_classSegment (h : e.kind? = some k) :
    ∃ c, e.classSegment.toList.getLast? = some c ∧ c ≠ 'k' := by
  rw [classSegment_eq, String.toList_append, List.getLast?_append]
  cases hlast : e.arity.toList.getLast? with
  | some c =>
    refine ⟨c, rfl, ?_⟩
    rintro rfl
    exact absurd (isDigit_of_mem_arity (List.mem_of_getLast? hlast)) (by decide)
  | none =>
    rw [name_of_kind? h, Option.none_or]
    cases k <;> exact ⟨_, rfl, by decide⟩

end Schematic.Entry

end ActorLinks
