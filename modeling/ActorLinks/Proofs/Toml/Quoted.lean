import ActorLinks.Proofs.Text.Digits
import ActorLinks.Toml.Quoted

/-! # Quoted strings read back

Whatever form a text is written in, as a value or as a key, reading it gives the text and what
stands behind it, as long as no quote stands there. Carriage returns are always written as escapes.
-/
namespace ActorLinks.Toml

section Escapes

theorem isPlain_iff {c : Char} :
    isPlain c = true ↔ isVisible c = true ∧ c ≠ '"' ∧ c ≠ '\\' := by
  simp [isPlain, and_assoc]

/-- Two digits are enough for every character that is not visible. -/
theorem toNat_lt_of_not_visible {c : Char} (h : isVisible c = false) : c.toNat < 256 := by
  simp only [isVisible, Bool.or_eq_false_iff, Bool.and_eq_false_iff, decide_eq_false_iff_not,
    Decidable.not_not] at h
  rcases h.2 with hlow | rfl
  · have hlt : ¬ 32 ≤ c.toNat := hlow
    omega
  · decide

theorem codePoint?_toNat {c : Char} (h : c.toNat < 256) :
    codePoint? ['0', '0', Text.upperHexChar (c.toNat / 16), Text.upperHexChar (c.toNat % 16)]
      = some c := by
  have hvalue := Text.hexValue?_of_digits (n := c.toNat)
    (Text.hexDigit?_upperHexChar (by omega)) (Text.hexDigit?_upperHexChar (by omega))
  have hvalid : c.toNat.isValidChar := c.valid
  simp only [codePoint?, hvalue, Option.bind_eq_bind, Option.bind_some, if_pos hvalid,
    Char.ofNat_toNat]

/-- A character that is no quote stands for itself, or is written as an escape that stands for
it. -/
theorem escape_cases (c : Char) : (escape c = [c] ∧ isPlain c = true) ∨
    ∃ code, escape c = '\\' :: code ∧ '\r' ∉ code ∧
      ∀ rest, escaped? (code ++ rest) = some (c, rest) := by
  unfold escape
  split
  · exact Or.inr ⟨['"'], rfl, by decide, fun _ => rfl⟩
  · exact Or.inr ⟨['\\'], rfl, by decide, fun _ => rfl⟩
  · exact Or.inr ⟨['b'], rfl, by decide, fun _ => rfl⟩
  · exact Or.inr ⟨['f'], rfl, by decide, fun _ => rfl⟩
  · exact Or.inr ⟨['n'], rfl, by decide, fun _ => rfl⟩
  · exact Or.inr ⟨['r'], rfl, by decide, fun _ => rfl⟩
  · exact Or.inr ⟨['t'], rfl, by decide, fun _ => rfl⟩
  · next hquote hbackslash _ _ _ _ _ =>
    cases hvisible : isVisible c with
    | true => exact Or.inl ⟨rfl, isPlain_iff.mpr ⟨hvisible, hquote, hbackslash⟩⟩
    | false =>
      have hlt := toNat_lt_of_not_visible hvisible
      refine Or.inr ⟨_, rfl, ?_, fun rest => ?_⟩
      · have hdigit : ∀ n < 16, Text.upperHexChar n ≠ '\r' := by decide
        have hhigh := hdigit (c.toNat / 16) (by omega)
        have hlow := hdigit (c.toNat % 16) (by omega)
        simp [hhigh.symm, hlow.symm]
      · show (codePoint? _).map _ = _
        rw [codePoint?_toNat hlt, Option.map_some]
        rfl

theorem escape_ne_nil (c : Char) : escape c ≠ [] := by
  rcases escape_cases c with ⟨hc, _⟩ | ⟨code, hc, _⟩ <;> simp [hc]

theorem carriageReturn_not_mem_escape (c : Char) : '\r' ∉ escape c := by
  rcases escape_cases c with ⟨hc, hplain⟩ | ⟨code, hc, hcode, _⟩
  · rw [hc, List.mem_singleton]
    rintro rfl
    exact absurd hplain (by decide)
  · rw [hc, List.mem_cons, not_or]
    exact ⟨by decide, hcode⟩

theorem head?_escape (c : Char) : (escape c).head? ≠ some '"' := by
  rcases escape_cases c with ⟨hc, hplain⟩ | ⟨code, hc, _⟩
  · rw [hc, List.head?_cons, Ne, Option.some.injEq]
    exact (isPlain_iff.mp hplain).2.1
  · rw [hc, List.head?_cons]
    decide

end Escapes

section Lines

theorem basicBody_cons {c : Char} (hc : isPlain c = true) (cs : List Char) :
    basicBody (c :: cs) = (basicBody cs).map fun (s, r) => (c :: s, r) := by
  obtain ⟨_, hquote, hbackslash⟩ := isPlain_iff.mp hc
  rw [basicBody.eq_4 c cs hquote hbackslash, if_pos hc]

theorem basicBody_escaped {c : Char} {code cs : List Char} (h : escaped? code = some (c, cs)) :
    basicBody ('\\' :: code) = (basicBody cs).map fun (s, r) => (c :: s, r) := by
  rw [basicBody]
  split
  · next d after hd =>
    rw [h] at hd
    cases hd
    rfl
  · next hd =>
    rw [h] at hd
    cases hd

theorem basicBody_escape (c : Char) (cs : List Char) :
    basicBody (escape c ++ cs) = (basicBody cs).map fun (s, r) => (c :: s, r) := by
  rcases escape_cases c with ⟨hc, hplain⟩ | ⟨code, hc, _, hcode⟩
  · rw [hc, List.singleton_append, basicBody_cons hplain]
  · rw [hc, List.cons_append, basicBody_escaped (hcode cs)]

theorem basicBody_flatMap_escape (s rest : List Char) :
    basicBody (s.flatMap escape ++ '"' :: rest) = some (s, rest) := by
  induction s with
  | nil => rw [List.flatMap_nil, List.nil_append, basicBody]
  | cons c s ih =>
    rw [List.flatMap_cons, List.append_assoc, basicBody_escape, ih, Option.map_some]

theorem literalBody_append {s : List Char} (h : s.all isLiteral = true) (rest : List Char) :
    literalBody (s ++ '\'' :: rest) = some (s, rest) := by
  induction s with
  | nil => rfl
  | cons c s ih =>
    obtain ⟨hc, hs⟩ := Bool.and_eq_true_iff.mp (List.all_cons ▸ h)
    have hquote : c ≠ '\'' := by
      rintro rfl
      exact absurd hc (by decide)
    rw [List.cons_append, literalBody.eq_3 c _ hquote, if_pos hc, ih hs, Option.map_some]

end Lines

section Tripled
variable {q : Char} {rest : List Char}

/-- The quotes that a list of characters begins with. -/
def quoteRun (q : Char) (cs : List Char) : Nat := (cs.takeWhile (· == q)).length

theorem quoteRun_of_head?_ne {cs : List Char} (h : cs.head? ≠ some q) : quoteRun q cs = 0 := by
  cases cs with
  | nil => rfl
  | cons c cs =>
    have hc : c ≠ q := by simpa using h
    simp [quoteRun, hc]

theorem quoteRun_replicate (k : Nat) (hrest : rest.head? ≠ some q) :
    quoteRun q (List.replicate k q ++ rest) = k := by
  have hzero := quoteRun_of_head?_ne hrest
  unfold quoteRun at hzero ⊢
  rw [List.takeWhile_append_of_pos (by simp), List.length_append, List.length_replicate, hzero,
    Nat.add_zero]

theorem closing?_of_lt {cs : List Char} (h : quoteRun q cs < 3) : closing? q cs = none := by
  unfold quoteRun at h
  simp only [closing?, if_pos h]

/-- Up to two quotes at the end of the text stand before the three that close it. -/
theorem closing?_replicate {k : Nat} (hk : k ≤ 2) (hrest : rest.head? ≠ some q) :
    closing? q (List.replicate k q ++ List.replicate 3 q ++ rest)
      = some (List.replicate k q, rest) := by
  have hrun := quoteRun_replicate (k + 3) hrest
  rw [← List.replicate_add]
  unfold quoteRun at hrun
  have hextra : min (k + 3 - 3) 2 = k := by omega
  simp only [closing?, hrun, hextra, if_neg (show ¬ k + 3 < 3 by omega)]
  rw [List.drop_append_of_le_length (by simp [Nat.add_comm]), Nat.add_comm 3 k]
  simp

theorem basicLines_escape {c : Char} (cs : List Char) :
    basicLines (escape c ++ cs) = (basicLines cs).map fun (s, r) => (c :: s, r) := by
  rcases escape_cases c with ⟨hc, hplain⟩ | ⟨code, hc, _, hcode⟩
  · obtain ⟨_, hquote, hbackslash⟩ := isPlain_iff.mp hplain
    have hclosing : closing? '"' (c :: cs) = none := by
      apply closing?_of_lt
      rw [quoteRun_of_head?_ne (by simpa using hquote)]
      decide
    rw [hc, List.singleton_append, basicLines.eq_4 c cs hbackslash hclosing, hplain]
    rfl
  · rw [hc, List.cons_append, basicLines.eq_3]
    split
    · next d after hd =>
      rw [hcode cs] at hd
      cases hd
      rfl
    · next hnone _ => cases (hcode cs).symm.trans hnone
    · next hnone _ => cases (hcode cs).symm.trans hnone

/-- The quotes that go on for no longer than three may be written as they are. -/
theorem escapeLines_replicate {k quotes : Nat} (h : quotes + k ≤ 2) :
    escapeLines quotes (List.replicate k '"') = List.replicate k '"' := by
  induction k generalizing quotes with
  | zero => rfl
  | succ k ih =>
    rw [List.replicate_succ, escapeLines.eq_3, if_pos (by omega), ih (by omega)]

theorem quoteRun_escapeLines {s : List Char} {quotes : Nat} (hquotes : quotes ≤ 2)
    (hs : ¬ ∃ k, s = List.replicate k '"' ∧ quotes + k ≤ 2) (cs : List Char) :
    quoteRun '"' (escapeLines quotes s ++ cs) ≤ 2 - quotes := by
  have hescape (c : Char) (cs : List Char) : quoteRun '"' (escape c ++ cs) = 0 := by
    apply quoteRun_of_head?_ne
    rw [List.head?_append_of_ne_nil _ (escape_ne_nil c)]
    exact head?_escape c
  induction s generalizing quotes with
  | nil => exact absurd ⟨0, rfl, by omega⟩ hs
  | cons c s ih =>
    by_cases hbreak : c = '\n'
    · subst hbreak
      rw [escapeLines.eq_2, List.cons_append, quoteRun_of_head?_ne (by simp)]
      exact Nat.zero_le _
    · by_cases hquote : c = '"'
      · subst hquote
        rw [escapeLines.eq_3]
        split
        · next hlt =>
          have hrun := @ih (quotes + 1) (by omega) fun ⟨k, hk, hle⟩ =>
            hs ⟨k + 1, by rw [hk, List.replicate_succ], by omega⟩
          have hcons (ds : List Char) : quoteRun '"' ('"' :: ds) = quoteRun '"' ds + 1 := by
            simp [quoteRun]
          rw [List.cons_append, hcons]
          omega
        · rw [List.append_assoc, hescape]
          exact Nat.zero_le _
      · rw [escapeLines.eq_4 quotes c s hbreak hquote, List.append_assoc, hescape]
        exact Nat.zero_le _

/-- `quotes` of the quotes before the text are its own. -/
theorem basicLines_escapeLines {s : List Char} {quotes : Nat} (hquotes : quotes ≤ 2)
    (hrest : rest.head? ≠ some '"') :
    basicLines (escapeLines quotes s ++ List.replicate 3 '"' ++ rest) = some (s, rest) := by
  induction s generalizing quotes with
  | nil => exact basicLines.eq_1 _ _ (closing?_replicate (k := 0) (by omega) hrest)
  | cons c s ih =>
    by_cases hall : ∃ k, c :: s = List.replicate k '"' ∧ quotes + k ≤ 2
    · -- the whole text belongs to the run of quotes that closes it
      obtain ⟨k, hk, hle⟩ := hall
      rw [hk, escapeLines_replicate hle]
      exact basicLines.eq_1 _ _ (closing?_replicate (by omega) hrest)
    · have hrun := quoteRun_escapeLines hquotes hall (List.replicate 3 '"' ++ rest)
      rw [← List.append_assoc] at hrun
      -- fewer than three quotes stand here, so the text goes on
      have hclosing := closing?_of_lt (Nat.lt_succ_of_le (Nat.le_trans hrun (Nat.sub_le 2 quotes)))
      by_cases hbreak : c = '\n'
      · subst hbreak
        rw [escapeLines.eq_2] at hclosing ⊢
        rw [List.cons_append, List.cons_append] at hclosing ⊢
        rw [basicLines.eq_4 _ _ (by decide) hclosing, ih (Nat.zero_le 2)]
        rfl
      · by_cases hquote : c = '"'
        · subst hquote
          rw [escapeLines.eq_3] at hclosing ⊢
          split
          · next hlt =>
            rw [if_pos hlt, List.cons_append, List.cons_append] at hclosing
            rw [List.cons_append, List.cons_append, basicLines.eq_4 _ _ (by decide) hclosing,
              ih (by omega)]
            rfl
          · rw [List.append_assoc, List.append_assoc, basicLines_escape, ← List.append_assoc,
              ih (Nat.zero_le 2)]
            rfl
        · rw [escapeLines.eq_4 quotes c s hbreak hquote, List.append_assoc, List.append_assoc,
            basicLines_escape, ← List.append_assoc, ih (Nat.zero_le 2)]
          rfl

/-- Without three quotes in a row, either the text is one or two quotes, or a character that is no
quote follows its first ones. -/
theorem quotes_or_run {s : List Char} (h : hasTriple q s = false) :
    (∃ k ≤ 2, s = List.replicate k q) ∨ ∀ cs, quoteRun q (s ++ cs) < 3 := by
  match s with
  | [] => exact Or.inl ⟨0, by omega, rfl⟩
  | c :: s =>
    by_cases hc : c = q
    · subst hc
      match s with
      | [] => exact Or.inl ⟨1, by omega, rfl⟩
      | d :: s =>
        by_cases hd : d = c
        · subst hd
          match s with
          | [] => exact Or.inl ⟨2, by omega, rfl⟩
          | e :: s =>
            have he : e ≠ d := by
              rintro rfl
              simp [hasTriple] at h
            exact Or.inr fun cs => by simp [quoteRun, he]
        · exact Or.inr fun cs => by simp [quoteRun, hd]
    · refine Or.inr fun cs => ?_
      rw [quoteRun_of_head?_ne (by simpa using hc)]
      decide

theorem literalLines_append {s : List Char} (h : fitsLiteralLines s = true)
    (hrest : rest.head? ≠ some '\'') :
    literalLines (s ++ List.replicate 3 '\'' ++ rest) = some (s, rest) := by
  obtain ⟨hall, htriple⟩ := Bool.and_eq_true_iff.mp h
  rw [Bool.not_eq_true'] at htriple
  induction s with
  | nil => exact literalLines.eq_1 _ _ (closing?_replicate (k := 0) (by omega) hrest)
  | cons c s ih =>
    rcases quotes_or_run htriple with ⟨k, hk, hs⟩ | hrun
    · rw [hs]
      exact literalLines.eq_1 _ _ (closing?_replicate hk hrest)
    · obtain ⟨hc, hs⟩ := Bool.and_eq_true_iff.mp (List.all_cons ▸ hall)
      have htriple' : hasTriple '\'' s = false := (Bool.or_eq_false_iff.mp htriple).2
      have hclosing := closing?_of_lt (hrun (List.replicate 3 '\'' ++ rest))
      rw [← List.append_assoc, List.cons_append, List.cons_append] at hclosing
      rw [List.cons_append, List.cons_append, literalLines.eq_3 _ _ hclosing, if_pos hc,
        ih (by simp [fitsLiteralLines, hs, htriple']) hs htriple', Option.map_some]

end Tripled

section Forms
variable {rest : List Char}

theorem string?_basic (s : List Char) (hrest : rest.head? ≠ some '"') :
    string? (['"'] ++ s.flatMap escape ++ ['"'] ++ rest) = some (String.ofList s, rest) := by
  have hline : line? ('"' :: (s.flatMap escape ++ '"' :: rest)) = some (String.ofList s, rest) := by
    rw [line?, basicBody_flatMap_escape, Option.map_some]
  rw [List.append_assoc, List.append_assoc, List.singleton_append, List.singleton_append]
  refine (string?.eq_3 _ (fun cs hcs => ?_) fun cs hcs => by simp at hcs).trans hline
  -- a text with three quotes in front would be empty and followed by one
  cases s with
  | nil =>
    simp only [List.flatMap_nil, List.nil_append, List.cons.injEq, true_and] at hcs
    exact hrest (by rw [hcs, List.head?_cons])
  | cons c s =>
    rw [List.flatMap_cons, List.append_assoc, List.cons.injEq] at hcs
    have hhead := head?_escape c
    rw [← List.head?_append_of_ne_nil _ (escape_ne_nil c), hcs.2] at hhead
    exact hhead rfl

theorem string?_literal {s : List Char} (hs : s.all isLiteral = true) (hne : s ≠ [])
    (rest : List Char) :
    string? (['\''] ++ s ++ ['\''] ++ rest) = some (String.ofList s, rest) := by
  have hline : line? ('\'' :: (s ++ '\'' :: rest)) = some (String.ofList s, rest) := by
    rw [line?, literalBody_append hs, Option.map_some]
  rw [List.append_assoc, List.append_assoc, List.singleton_append, List.singleton_append]
  refine (string?.eq_3 _ (fun cs hcs => by simp at hcs) fun cs hcs => ?_).trans hline
  obtain ⟨c, s, rfl⟩ := List.exists_cons_of_ne_nil hne
  have hc : isLiteral c = true := (Bool.and_eq_true_iff.mp (List.all_cons ▸ hs)).1
  simp only [List.cons_append, List.cons.injEq, true_and] at hcs
  rw [hcs.1] at hc
  exact absurd hc (by decide)

/-- The line break that sets off several lines is passed over, and no other. -/
theorem dropFirstBreak_tripled {q : Char} (hq : q ≠ '\n') (body cs : List Char) :
    dropFirstBreak ((if body.contains '\n' then ['\n'] else []) ++ body ++ List.replicate 3 q ++ cs)
      = body ++ List.replicate 3 q ++ cs := by
  split
  · rfl
  · next hbody =>
    cases body with
    | nil =>
      show dropFirstBreak (q :: _) = q :: _
      rw [dropFirstBreak.eq_2 _ fun rest h => hq (List.cons.inj h).1]
    | cons c body =>
      have hc : c ≠ '\n' := by
        rintro rfl
        simp at hbody
      show dropFirstBreak (c :: _) = c :: _
      rw [dropFirstBreak.eq_2 _ fun rest h => hc (List.cons.inj h).1]

theorem string?_basicLines (s : List Char) (hrest : rest.head? ≠ some '"') :
    string? (tripled '"' (escapeLines 0 s) ++ rest) = some (String.ofList s, rest) := by
  have hlines := basicLines_escapeLines (s := s) (Nat.zero_le 2) hrest
  have hsplit : tripled '"' (escapeLines 0 s) ++ rest = '"' :: '"' :: '"' ::
      ((if (escapeLines 0 s).contains '\n' then ['\n'] else []) ++ escapeLines 0 s
        ++ List.replicate 3 '"' ++ rest) := by
    simp [tripled, List.replicate_succ]
  rw [hsplit, string?, dropFirstBreak_tripled (by decide), hlines, Option.map_some]

theorem string?_literalLines {s : List Char} (hs : fitsLiteralLines s = true)
    (hrest : rest.head? ≠ some '\'') :
    string? (tripled '\'' s ++ rest) = some (String.ofList s, rest) := by
  have hlines := literalLines_append hs hrest
  have hsplit : tripled '\'' s ++ rest = '\'' :: '\'' :: '\'' ::
      ((if s.contains '\n' then ['\n'] else []) ++ s ++ List.replicate 3 '\'' ++ rest) := by
    simp [tripled, List.replicate_succ]
  rw [hsplit, string?, dropFirstBreak_tripled (by decide), hlines, Option.map_some]

/-- A text is read back from the form that it is written in. -/
theorem string?_quote (s : List Char) (hbasic : rest.head? ≠ some '"')
    (hliteral : rest.head? ≠ some '\'') :
    string? (quote s ++ rest) = some (String.ofList s, rest) := by
  unfold quote
  split
  · exact string?_basic s hbasic
  · next hplain =>
    have hne : s ≠ [] := by
      rintro rfl
      exact hplain rfl
    split
    · next hs => exact string?_literal hs hne rest
    · split
      · exact string?_basicLines s hbasic
      · split
        · next hs => exact string?_literalLines hs hliteral
        · split
          · exact string?_basicLines s hbasic
          · exact string?_basic s hbasic

theorem line?_basic (s rest : List Char) :
    line? (['"'] ++ s.flatMap escape ++ ['"'] ++ rest) = some (String.ofList s, rest) := by
  rw [List.append_assoc, List.append_assoc, List.singleton_append, List.singleton_append, line?,
    basicBody_flatMap_escape, Option.map_some]

theorem line?_literal {s : List Char} (hs : s.all isLiteral = true) (rest : List Char) :
    line? (['\''] ++ s ++ ['\''] ++ rest) = some (String.ofList s, rest) := by
  rw [List.append_assoc, List.append_assoc, List.singleton_append, List.singleton_append, line?,
    literalBody_append hs, Option.map_some]

/-- A key is read back where no character of a bare key follows. -/
theorem key?_quoteKey (s : List Char) (hrest : ∀ c ∈ rest.head?, isBare c = false) :
    key? (quoteKey s ++ rest) = some (String.ofList s, rest) := by
  unfold quoteKey
  split
  · next hbare =>
    obtain ⟨hne, hall⟩ := Bool.and_eq_true_iff.mp hbare
    obtain ⟨c, s, rfl⟩ := List.exists_cons_of_ne_nil (l := s) (by simpa using hne)
    have hc : isBare c = true := (Bool.and_eq_true_iff.mp (List.all_cons ▸ hall)).1
    have hquotes : c ≠ '"' ∧ c ≠ '\'' := by
      constructor <;>
        rintro rfl <;>
        exact absurd hc (by decide)
    have htake : (c :: s ++ rest).takeWhile isBare = c :: s := by
      rw [List.takeWhile_append_of_pos (List.all_eq_true.mp hall)]
      cases rest with
      | nil => simp
      | cons d rest => simp [hrest d rfl]
    have hdrop : (c :: s ++ rest).dropWhile isBare = rest := by
      rw [List.dropWhile_append_of_pos (List.all_eq_true.mp hall)]
      cases rest with
      | nil => rfl
      | cons d rest => simp [hrest d rfl]
    rw [List.cons_append] at htake hdrop ⊢
    rw [key?.eq_3 _ (fun cs h => hquotes.1 (List.cons.inj h).1)
      fun cs h => hquotes.2 (List.cons.inj h).1]
    simp only [htake, hdrop]
    rfl
  · split
    · next hliteral =>
      exact line?_literal (Bool.and_eq_true_iff.mp hliteral).2 rest
    · exact line?_basic s rest

end Forms

section Marks

theorem head?_quote (s rest : List Char) :
    (quote s ++ rest).head? = some '"' ∨ (quote s ++ rest).head? = some '\'' := by
  unfold quote tripled
  repeat' split
  all_goals simp

/-- What a written key begins with. -/
theorem head?_quoteKey (s rest : List Char) : ∃ c, (quoteKey s ++ rest).head? = some c ∧
    (c = '"' ∨ c = '\'' ∨ isBare c = true) := by
  unfold quoteKey
  split
  · next hbare =>
    obtain ⟨hne, hall⟩ := Bool.and_eq_true_iff.mp hbare
    obtain ⟨c, s, rfl⟩ := List.exists_cons_of_ne_nil (l := s) (by simpa using hne)
    exact ⟨c, rfl, Or.inr (Or.inr (Bool.and_eq_true_iff.mp (List.all_cons ▸ hall)).1)⟩
  · split
    · exact ⟨'\'', rfl, Or.inr (Or.inl rfl)⟩
    · exact ⟨'"', rfl, Or.inl rfl⟩

theorem carriageReturn_not_mem_flatMap_escape (s : List Char) : '\r' ∉ s.flatMap escape := by
  rw [List.mem_flatMap]
  rintro ⟨c, _, hc⟩
  exact carriageReturn_not_mem_escape c hc

theorem carriageReturn_not_mem_escapeLines (s : List Char) (quotes : Nat) :
    '\r' ∉ escapeLines quotes s := by
  induction s generalizing quotes with
  | nil => simp [escapeLines]
  | cons c s ih =>
    have hescape (d : Char) : '\r' ∉ escape d ++ escapeLines 0 s := by
      rw [List.mem_append, not_or]
      exact ⟨carriageReturn_not_mem_escape d, ih 0⟩
    by_cases hbreak : c = '\n'
    · subst hbreak
      rw [escapeLines.eq_2]
      simpa using ih 0
    · by_cases hquote : c = '"'
      · subst hquote
        rw [escapeLines.eq_3]
        split
        · simpa using ih (quotes + 1)
        · exact hescape _
      · rw [escapeLines.eq_4 quotes c s hbreak hquote]
        exact hescape c

theorem carriageReturn_not_mem_of_literal {s : List Char} (h : s.all isLiteral = true) :
    '\r' ∉ s := fun hmem =>
  absurd (List.all_eq_true.mp h _ hmem) (by decide)

theorem carriageReturn_not_mem_tripled {q : Char} (hq : q ≠ '\r') {body : List Char}
    (h : '\r' ∉ body) : '\r' ∉ tripled q body := by
  unfold tripled
  split <;> simp [h, hq.symm]

theorem carriageReturn_not_mem_quote (s : List Char) : '\r' ∉ quote s := by
  have hbasic : '\r' ∉ ['"'] ++ s.flatMap escape ++ ['"'] := by
    simpa using carriageReturn_not_mem_flatMap_escape s
  have hlines : '\r' ∉ tripled '"' (escapeLines 0 s) :=
    carriageReturn_not_mem_tripled (by decide) (carriageReturn_not_mem_escapeLines s 0)
  unfold quote
  split
  · exact hbasic
  · split
    · next hs => simpa using carriageReturn_not_mem_of_literal hs
    · split
      · exact hlines
      · split
        · next hs =>
          refine carriageReturn_not_mem_tripled (by decide) fun hmem => ?_
          have hall := (Bool.and_eq_true_iff.mp hs).1
          exact absurd (List.all_eq_true.mp hall _ hmem) (by decide)
        · split
          · exact hlines
          · exact hbasic

theorem carriageReturn_not_mem_quoteKey (s : List Char) : '\r' ∉ quoteKey s := by
  unfold quoteKey
  split
  · next hbare =>
    intro hmem
    have hall := (Bool.and_eq_true_iff.mp hbare).2
    exact absurd (List.all_eq_true.mp hall _ hmem) (by decide)
  · split
    · next hs => simpa using carriageReturn_not_mem_of_literal (Bool.and_eq_true_iff.mp hs).2
    · simpa using carriageReturn_not_mem_flatMap_escape s

end Marks

end ActorLinks.Toml
