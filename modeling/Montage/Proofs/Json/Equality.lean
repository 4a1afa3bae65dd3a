import Montage.Json

/-!
# Documents are compared

Whether two documents are the same is decided by walking through both (`Json.same`), so what a text
is read as can be checked against what it should be read as.
-/
namespace Montage.Json

mutual

/-- Whether two documents are the same. -/
def same : Json → Json → Bool
  | .null, .null => true
  | .bool a, .bool b => a == b
  | .number a, .number b => a == b
  | .string a, .string b => a == b
  | .array as, .array bs => sameItems as bs
  | .object as, .object bs => sameMembers as bs
  | _, _ => false

/-- Whether two lists of documents are the same. -/
def sameItems : List Json → List Json → Bool
  | [], [] => true
  | a :: as, b :: bs => same a b && sameItems as bs
  | _, _ => false

/-- Whether two objects have the same members in the same order. -/
def sameMembers : List (String × Json) → List (String × Json) → Bool
  | [], [] => true
  | (m, a) :: as, (n, b) :: bs => m == n && same a b && sameMembers as bs
  | _, _ => false

end

mutual

theorem same_self : (a : Json) → same a a = true
  | .null => by simp [same]
  | .bool a => by simp [same]
  | .number a => by simp [same]
  | .string a => by simp [same]
  | .array as => by simpa [same] using sameItems_self as
  | .object as => by simpa [same] using sameMembers_self as

theorem sameItems_self : (as : List Json) → sameItems as as = true
  | [] => by simp [sameItems]
  | a :: as => by simp [sameItems, same_self a, sameItems_self as]

theorem sameMembers_self : (as : List (String × Json)) → sameMembers as as = true
  | [] => by simp [sameMembers]
  | (m, a) :: as => by simp [sameMembers, same_self a, sameMembers_self as]

end

mutual

theorem eq_of_same : (a b : Json) → same a b = true → a = b
  | .null, b, h => by cases b <;> simp_all [same]
  | .bool a, b, h => by cases b <;> simp_all [same]
  | .number a, b, h => by cases b <;> simp_all [same]
  | .string a, b, h => by cases b <;> simp_all [same]
  | .array as, b, h => by
    cases b with
    | array bs =>
      rw [same] at h
      rw [eq_of_sameItems as bs h]
    | _ => simp [same] at h
  | .object as, b, h => by
    cases b with
    | object bs =>
      rw [same] at h
      rw [eq_of_sameMembers as bs h]
    | _ => simp [same] at h

theorem eq_of_sameItems : (as bs : List Json) → sameItems as bs = true → as = bs
  | [], bs, h => by cases bs <;> simp_all [sameItems]
  | a :: as, [], h => by simp [sameItems] at h
  | a :: as, b :: bs, h => by
    rw [sameItems, Bool.and_eq_true] at h
    rw [eq_of_same a b h.1, eq_of_sameItems as bs h.2]

theorem eq_of_sameMembers : (as bs : List (String × Json)) → sameMembers as bs = true → as = bs
  | [], bs, h => by cases bs <;> simp_all [sameMembers]
  | (m, a) :: as, [], h => by simp [sameMembers] at h
  | (m, a) :: as, (n, b) :: bs, h => by
    simp only [sameMembers, Bool.and_eq_true, beq_iff_eq] at h
    rw [h.1.1, eq_of_same a b h.1.2, eq_of_sameMembers as bs h.2]

end

instance : DecidableEq Json := fun a b =>
  decidable_of_iff (same a b = true) ⟨eq_of_same a b, by rintro rfl; exact same_self a⟩

end Montage.Json
