import Mathlib.Data.List.Induction
import Montage.Failure

/-!
# Bounded ends

A text that grows by chunks is cut to its end after each of them, and a failure's detail is cut
once more for the caller. For a positive limit nothing shows of the cuts: what is kept is the end
of all chunks, of just as many characters as the limit allows (`kept_eq`, `isEnd_tail`). A limit
of zero bounds nothing (`kept_zero`): it keeps the whole text, in both places.
-/
namespace Montage

namespace Text

/-- A text consists of the last characters of another one: of `n` of them, or of all if there are
fewer. -/
structure IsEnd (n : Nat) (s r : String) : Prop where
  suffix : r.toList <:+ s.toList
  length : r.length = min n s.length

/-- What is kept of some chunks that are appended one after another. -/
def kept (n : Int) (chunks : List String) : String := chunks.foldl (appendTail n) ""

theorem join_append_singleton (chunks : List String) (chunk : String) :
    String.join (chunks ++ [chunk]) = String.join chunks ++ chunk := by
  simp

theorem kept_append_singleton (n : Int) (chunks : List String) (chunk : String) :
    kept n (chunks ++ [chunk]) = appendTail n (kept n chunks) chunk := by
  simp [kept]

/-- Cutting after every chunk is cutting once. -/
theorem kept_eq {n : Int} (hn : 0 < n) (chunks : List String) :
    kept n chunks = tail n (String.join chunks) := by
  induction chunks using List.reverseRecOn with
  | nil => simp [kept, tail, tailOf]
  | append_singleton chunks chunk ih =>
    have cut (s : String) : tail n s = appendTail n "" s := by rw [appendTail, String.empty_append]
    rw [kept_append_singleton, ih, join_append_singleton, cut, cut, appendTail_appendTail n hn]

theorem tail_zero (s : String) : tail 0 s = s := by
  simp [tail, tailOf, tailStart]

/-- Without a bound everything is kept. -/
theorem kept_zero (chunks : List String) : kept 0 chunks = String.join chunks := by
  induction chunks using List.reverseRecOn with
  | nil => rfl
  | append_singleton chunks chunk ih =>
    rw [kept_append_singleton, ih, appendTail, tail_zero, join_append_singleton]

/-- The end for a positive limit has as many characters as it says. -/
theorem isEnd_tail {n : Nat} (hn : 0 < n) (s : String) : IsEnd n s (tail n s) where
  suffix := by
    rw [tail, String.toList_ofList]
    exact List.drop_suffix ..
  length := by
    rw [tail, String.length_ofList, length_tailOf n (by omega), Int.toNat_natCast,
      String.length_toList]

/-- A whole text is its own end, unless there are more characters than the limit. -/
theorem isEnd_self {n : Nat} {s : String} : IsEnd n s s ↔ s.length ≤ n := by
  constructor
  · intro h
    have := h.length
    omega
  · exact fun h => ⟨List.suffix_refl _, (Nat.min_eq_right h).symm⟩

/-- Only an empty text has an end of no characters that is all of it. -/
theorem isEnd_zero_self (s : String) : IsEnd 0 s s ↔ s = "" := by
  rw [isEnd_self, Nat.le_zero, String.length_eq_zero_iff]

end Text

open Text (IsEnd kept isEnd_tail isEnd_self isEnd_zero_self)

/-- A detail cut for a caller is its end. -/
theorem Failure.isEnd_cutDetail {n : Nat} (hn : 0 < n) (s : String) :
    IsEnd n s (cutDetail (some n) s) := by
  unfold cutDetail
  dsimp only
  split
  · exact isEnd_tail hn s
  · exact isEnd_self.2 (by omega)

theorem Failure.cutDetail_zero (s : String) : cutDetail (some 0) s = s := by
  unfold cutDetail
  dsimp only
  split
  · exact Text.tail_zero s
  · rfl

/-- What is kept of growing text, and what is told of a failure's detail, is the end that the limit
allows, if and only if the limit is positive or there is no text at all. -/
theorem ends_bounded_iff (n : Nat) :
    (∀ chunks : List String, IsEnd n (String.join chunks) (kept n chunks) ↔
      0 < n ∨ String.join chunks = "") ∧
    ∀ (f : Failure) (detail : String), f.detail = some detail →
      ∃ told, (f.info (some n)).detail = some told ∧
        (IsEnd n detail told ↔ 0 < n ∨ detail = "") := by
  constructor
  · intro chunks
    cases n with
    | zero =>
      rw [Int.natCast_zero, Text.kept_zero, isEnd_zero_self]
      simp
    | succ n =>
      rw [Text.kept_eq (by omega)]
      exact iff_of_true (isEnd_tail n.succ_pos _) (.inl n.succ_pos)
  · intro f detail there
    have told : (f.info (some n)).detail = some (Failure.cutDetail (some n) detail) := by
      rw [Failure.info, there]
      rfl
    refine ⟨_, told, ?_⟩
    cases n with
    | zero =>
      rw [Int.natCast_zero, Failure.cutDetail_zero, isEnd_zero_self]
      simp
    | succ n =>
      exact iff_of_true (Failure.isEnd_cutDetail n.succ_pos _) (.inl n.succ_pos)

theorem ends_bounded_two :
    (Failure.encoding 1 (some "abc")).detail = some "abc" ∧
      ∃ told, ((Failure.encoding 1 (some "abc")).info (some 2)).detail = some told ∧
        (IsEnd 2 "abc" told ↔ 0 < 2 ∨ "abc" = "") :=
  ⟨rfl, (ends_bounded_iff 2).2 (.encoding 1 (some "abc")) "abc" rfl⟩

/-- A limit of zero keeps everything. -/
theorem ends_unbounded_zero :
    ¬IsEnd 0 (String.join ["abc"]) (kept 0 ["abc"]) ∧
      ((Failure.encoding 1 (some "abc")).info (some 0)).detail = some "abc" ∧
      ¬IsEnd 0 "abc" "abc" := by
  refine ⟨?_, by decide +kernel, ?_⟩
  · rw [Text.kept_zero, isEnd_zero_self]
    decide
  · rw [isEnd_zero_self]
    decide

end Montage
