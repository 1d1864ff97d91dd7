import Mathlib.Algebra.Group.Nat.Defs
import Mathlib.Data.List.Lex
import Mathlib.Order.Basic

/-! # The order of bytes

Texts are compared by the code points of their characters. Their bytes compare alike: a greater
code point begins with a greater byte, or agrees in the first bytes and goes on with a greater one.
-/
namespace ActorLinks.Text

/-- The bytes of a text as it is encoded in UTF-8. -/
def bytes (text : String) : List UInt8 := text.toUTF8.data.toList

theorem bytes_eq_flatMap (text : String) :
    bytes text = text.toList.flatMap String.utf8EncodeChar := by
  have hencode : text.toUTF8 = (text.toList.flatMap String.utf8EncodeChar).toByteArray :=
    String.utf8Encode_toList.symm
  rw [bytes, hencode, List.data_toByteArray, List.toList_toArray]

section Bytes
variable {m n : Nat} {x y : List UInt8}

/-- The bytes that carry so many groups of six bits, the last ones of the number. -/
def continuation : Nat → Nat → List UInt8
  | 0, _ => []
  | k + 1, m => continuation k (m / 64) ++ [UInt8.ofNat (m % 64 + 128)]

/-- A greater first byte, or an equal one with a greater rest. -/
theorem ofNat_cons_lt (hm : m < 256) (hn : n < 256) (h : m < n ∨ m = n ∧ x < y) :
    UInt8.ofNat m :: x < UInt8.ofNat n :: y := by
  refine List.cons_lt_cons_iff.mpr (h.imp (fun hlt => ?_) fun ⟨heq, hrest⟩ => ?_)
  · rwa [UInt8.lt_iff_toNat_lt, UInt8.toNat_ofNat_of_lt' hm, UInt8.toNat_ofNat_of_lt' hn]
  · exact ⟨congrArg UInt8.ofNat heq, hrest⟩

/-- Numbers that agree before their last bits compare by these. -/
theorem continuation_lt (k : Nat) (h : m < n) : m / 64 ^ k < n / 64 ^ k ∨
    m / 64 ^ k = n / 64 ^ k ∧ ∀ x y, continuation k m ++ x < continuation k n ++ y := by
  induction k generalizing m n with
  | zero => exact .inl (by simpa using h)
  | succ k ih =>
    rw [Nat.pow_succ', ← Nat.div_div_eq_div_mul, ← Nat.div_div_eq_div_mul]
    simp only [continuation, List.append_assoc]
    have hsplit : m / 64 < n / 64 ∨ m / 64 = n / 64 ∧ m % 64 < n % 64 := by omega
    rcases hsplit with hfront | ⟨hfront, hlast⟩
    · exact (ih hfront).imp_right (And.imp_right fun hrest x y => hrest _ _)
    · refine .inr ⟨by rw [hfront], fun x y => ?_⟩
      rw [hfront]
      exact List.append_left_lt (ofNat_cons_lt (by omega) (by omega) (.inl (by omega)))

end Bytes

/-- The lesser character begins with lesser bytes, whatever follows. -/
theorem utf8EncodeChar_append_lt {c d : Char} (h : c < d) (x y : List UInt8) :
    String.utf8EncodeChar c ++ x < String.utf8EncodeChar d ++ y := by
  have hvalue : c.val.toNat < d.val.toNat := UInt32.lt_iff_toNat_lt.mp (Char.lt_def.mp h)
  have hlimit : d.val.toNat < 1114112 := by
    rcases d.valid with hlow | ⟨_, hhigh⟩
    · exact hlow.trans (by decide)
    · exact hhigh
  generalize hm : c.val.toNat = m at hvalue
  generalize hn : d.val.toNat = n at hvalue hlimit
  simp only [String.utf8EncodeChar, hm, hn]
  split_ifs
  -- of characters of different sizes the first bytes differ
  all_goals first
    | omega
    | exact ofNat_cons_lt (by omega) (by omega) (.inl (by omega))
    | skip
  · rcases continuation_lt 1 hvalue with hfirst | ⟨hfirst, hrest⟩
    · exact ofNat_cons_lt (by omega) (by omega) (.inl (by omega))
    · exact ofNat_cons_lt (by omega) (by omega) (.inr ⟨by omega, hrest x y⟩)
  · rcases continuation_lt 2 hvalue with hfirst | ⟨hfirst, hrest⟩
    · exact ofNat_cons_lt (by omega) (by omega) (.inl (by omega))
    · exact ofNat_cons_lt (by omega) (by omega) (.inr ⟨by omega, hrest x y⟩)
  · rcases continuation_lt 3 hvalue with hfirst | ⟨hfirst, hrest⟩
    · exact ofNat_cons_lt (by omega) (by omega) (.inl (by omega))
    · simp only [continuation, Nat.div_div_eq_div_mul] at hrest
      exact ofNat_cons_lt (by omega) (by omega) (.inr ⟨by omega, hrest x y⟩)

theorem flatMap_utf8EncodeChar_lt {cs ds : List Char} (h : cs < ds) :
    cs.flatMap String.utf8EncodeChar < ds.flatMap String.utf8EncodeChar := by
  induction cs generalizing ds with
  | nil =>
    cases ds with
    | nil => exact absurd h (List.lt_irrefl _)
    | cons d ds =>
      obtain ⟨b, bs, hbytes⟩ : ∃ b bs, String.utf8EncodeChar d = b :: bs :=
        List.exists_cons_of_ne_nil String.utf8EncodeChar_ne_nil
      rw [List.flatMap_cons, hbytes]
      exact List.nil_lt_cons _ _
  | cons c cs ih =>
    cases ds with
    | nil => exact absurd h (List.not_lt_nil _)
    | cons d ds =>
      rw [List.flatMap_cons, List.flatMap_cons]
      rcases List.cons_lt_cons_iff.mp h with hlt | ⟨rfl, hrest⟩
      · exact utf8EncodeChar_append_lt hlt _ _
      · exact List.append_left_lt (ih hrest)

theorem bytes_lt {s t : String} (h : s < t) : bytes s < bytes t := by
  rw [bytes_eq_flatMap, bytes_eq_flatMap]
  exact flatMap_utf8EncodeChar_lt h

end ActorLinks.Text
