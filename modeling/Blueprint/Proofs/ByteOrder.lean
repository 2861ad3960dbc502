import Blueprint.FileName
import Mathlib.Tactic.SplitIfs

/-!
# The order of texts is that of their bytes

Texts are compared character by character, and names byte by byte. This makes no difference to names
that write texts: where two texts differ first, the smaller character is written with a smaller byte
where the bytes of the two characters differ first. So maps from text are in the order of the bytes
of their keys (`FileName.ofText_lt_ofText_iff`).
-/

namespace Blueprint.FileName

private theorem bytes_ofText (text : String) :
    (ofText text).bytes = text.toList.flatMap String.utf8EncodeChar := by
  have bytes : text.toByteArray = text.toList.utf8Encode := by
    rw [← String.toByteArray_ofList, String.ofList_toList]
  rw [ofText, String.toUTF8_eq_toByteArray, bytes]
  exact List.toList_data_toByteArray

private theorem ofNat_cons_lt_cons {m n : Nat} {front back : List UInt8} (le : m ≤ n)
    (small : n < 256)
    (later : m = n → front < back) : UInt8.ofNat m :: front < UInt8.ofNat n :: back := by
  have value {k : Nat} (small : k < 256) : (UInt8.ofNat k).toNat = k := by
    rw [UInt8.toNat_ofNat', Nat.mod_eq_of_lt small]
  rw [List.cons_lt_cons_iff, UInt8.lt_iff_toNat_lt, value (Nat.lt_of_le_of_lt le small), value small]
  rcases Nat.lt_or_eq_of_le le with less | rfl
  · exact .inl less
  · exact .inr ⟨rfl, later rfl⟩

/-- A smaller character is written with smaller bytes, whatever follows. -/
private theorem utf8EncodeChar_append_lt {c d : Char} (less : c < d) (front back : List UInt8) :
    String.utf8EncodeChar c ++ front < String.utf8EncodeChar d ++ back := by
  have values : c.val.toNat < d.val.toNat := less
  have bound : d.val.toNat < 0x110000 := by
    rcases d.valid with small | ⟨-, small⟩
    · exact Nat.lt_trans small (by decide)
    · exact small
  unfold String.utf8EncodeChar
  generalize c.val.toNat = v at values
  generalize d.val.toNat = w at values bound
  simp only
  -- The first byte grows with the number of bytes; for equally many bytes, they are digits of the
  -- code in base 64.
  split_ifs
  all_goals
    simp only [List.cons_append, List.nil_append]
    first
    | omega
    | repeat refine ofNat_cons_lt_cons (by omega) (by omega) fun same => ?_
      omega

private theorem ofText_lt_of_lt {x y : String} (less : x < y) : ofText x < ofText y := by
  have encoded {front back : List Char} (less : List.Lex (· < ·) front back) :
      front.flatMap String.utf8EncodeChar < back.flatMap String.utf8EncodeChar := by
    induction less with
    | @nil c back =>
      have written : String.utf8EncodeChar c ≠ [] := String.utf8EncodeChar_ne_nil
      obtain ⟨byte, bytes, same⟩ := List.exists_cons_of_ne_nil written
      rw [List.flatMap_cons, same]
      exact List.nil_lt_cons _ _
    | @rel c front d back less =>
      rw [List.flatMap_cons, List.flatMap_cons]
      exact utf8EncodeChar_append_lt less _ _
    | @cons c front back _ ih =>
      rw [List.flatMap_cons, List.flatMap_cons]
      exact List.append_left_lt ih
  show (ofText x).bytes < (ofText y).bytes
  rw [bytes_ofText, bytes_ofText]
  exact encoded less

/-- Names that write texts are in the order of these texts. -/
theorem ofText_lt_ofText_iff {x y : String} : ofText x < ofText y ↔ x < y := by
  constructor
  · intro less
    -- In any other order of the texts the names would be in another order too.
    rcases Std.lt_trichotomy x y with below | same | above
    · exact below
    · subst same
      exact absurd less Std.lt_irrefl
    · exact absurd less (Std.not_gt_of_lt (ofText_lt_of_lt above))
  · exact ofText_lt_of_lt

end Blueprint.FileName
