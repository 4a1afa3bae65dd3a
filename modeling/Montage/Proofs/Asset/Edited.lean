import Montage.Proofs.Asset.Resolved
import Montage.Proofs.Graph.Pairing

/-!
# Resolving an edited timeline

An `Edit` leaves out clips whose files are not there, and gives the other clips other slots and
other names. Resolving the edited timeline finds the same files with the same numbers
(`Edit.agree_assets`): an asset is given by its source and its kind, and one without a file takes no
number.

What an edit does to the clips and to their assets is one relation of lists, `Thinned`: the second
list has a counterpart for each element of the first but for some that are dropped.
-/
namespace Montage

/-! ## Lists with elements left out -/

/-- The elements of the second list are the counterparts of those of the first, in their order; some
of the first may be dropped. -/
inductive Thinned {α β : Type} (R : α → β → Prop) (P : α → Prop) : List α → List β → Prop
  | nil : Thinned R P [] []
  | keep {x : α} {y : β} {xs : List α} {ys : List β} (counterpart : R x y)
      (rest : Thinned R P xs ys) : Thinned R P (x :: xs) (y :: ys)
  | drop {x : α} {xs : List α} {ys : List β} (dropped : P x) (rest : Thinned R P xs ys) :
      Thinned R P (x :: xs) ys

namespace Thinned

variable {α β γ δ ε : Type} {R : α → β → Prop} {P : α → Prop} {T : γ → δ → Prop} {U : γ → Prop}
  {xs xs' : List α} {ys ys' : List β}

theorem of_forall₂ (h : List.Forall₂ R xs ys) : Thinned R P xs ys := by
  induction h with
  | nil => exact nil
  | cons h _ ih => exact ih.keep h

theorem append (h : Thinned R P xs ys) (h' : Thinned R P xs' ys') :
    Thinned R P (xs ++ xs') (ys ++ ys') := by
  induction h with
  | nil => exact h'
  | keep counterpart _ ih => exact ih.keep counterpart
  | drop dropped _ ih => exact ih.drop dropped

theorem reverse (h : Thinned R P xs ys) : Thinned R P xs.reverse ys.reverse := by
  induction h with
  | nil => exact nil
  | keep counterpart _ ih =>
    rw [List.reverse_cons, List.reverse_cons]
    exact ih.append (nil.keep counterpart)
  | drop dropped _ ih =>
    rw [List.reverse_cons]
    simpa using ih.append (nil.drop dropped)

theorem of_mem (h : Thinned R P xs ys) {x : α} (hx : x ∈ xs) : (∃ y ∈ ys, R x y) ∨ P x := by
  induction h with
  | nil => cases hx
  | keep counterpart _ ih =>
    rcases List.mem_cons.1 hx with rfl | hx
    · exact .inl ⟨_, List.mem_cons_self, counterpart⟩
    · exact (ih hx).imp_left fun ⟨y, hy, related⟩ => ⟨y, List.mem_cons_of_mem _ hy, related⟩
  | drop dropped _ ih =>
    rcases List.mem_cons.1 hx with rfl | hx
    · exact .inr dropped
    · exact ih hx

/-- What is found of counterparts, where nothing dropped is looked for. -/
theorem find? {p : α → Bool} {p' : β → Bool} (h : Thinned R P xs ys)
    (keeps : ∀ x y, R x y → p x = p' y) (drops : ∀ x, P x → p x = false) :
    Option.Rel R (xs.find? p) (ys.find? p') := by
  induction h with
  | nil => exact .none
  | keep counterpart _ ih =>
    rw [List.find?_cons, List.find?_cons, ← keeps _ _ counterpart]
    split
    · exact .some counterpart
    · exact ih
  | drop dropped _ ih =>
    rw [List.find?_cons_of_neg (by simp [drops _ dropped])]
    exact ih

theorem filterMap {f : α → Option γ} {g : β → Option δ} (h : Thinned R P xs ys)
    (keeps : ∀ x y, R x y → Option.Rel T (f x) (g y)) (drops : ∀ x, P x → f x = none) :
    List.Forall₂ T (xs.filterMap f) (ys.filterMap g) := by
  induction h with
  | nil => exact .nil
  | @keep x y _ _ counterpart _ ih =>
    have related := keeps x y counterpart
    rw [List.filterMap_cons, List.filterMap_cons]
    cases hx : f x with
    | none =>
      rw [hx] at related
      cases hy : g y with
      | none => exact ih
      | some b =>
        rw [hy] at related
        cases related
    | some a =>
      rw [hx] at related
      cases hy : g y with
      | none =>
        rw [hy] at related
        cases related
      | some b =>
        rw [hy] at related
        cases related with
        | some hab => exact .cons hab ih
  | drop dropped _ ih =>
    rw [List.filterMap_cons_none (drops _ dropped)]
    exact ih

theorem filterMapM {f : α → Except ε (Option γ)} {g : β → Except ε (Option δ)}
    (h : Thinned R P xs ys) (keeps : ∀ x y, R x y → Agree (Option.Rel T) (f x) (g y))
    (drops : ∀ x, P x → ∃ a, f x = .ok (some a) ∧ U a) :
    Agree (Thinned T U) (xs.filterMapM f) (ys.filterMapM g) := by
  induction h with
  | nil => exact .ok nil
  | keep counterpart _ ih =>
    rw [List.filterMapM_cons, List.filterMapM_cons]
    refine (keeps _ _ counterpart).bind ?_
    rintro _ _ (⟨hab⟩ | _)
    · exact ih.bind fun as bs habs => .ok (habs.keep hab)
    · exact ih
  | @drop x _ ys dropped _ ih =>
    obtain ⟨a, ha, lost⟩ := drops x dropped
    rw [List.filterMapM_cons, ha, ← bind_pure (List.filterMapM g ys)]
    exact ih.bind fun as bs habs => .ok (habs.drop lost)

end Thinned

/-! ## Edits -/

/-- An edit of a timeline: the slots of the clips that stay, where they go, and which names belong
together. Those of the soundtrack and the background stay. -/
structure Edit where
  keeps : Nat × Nat → Prop
  move : Nat × Nat → Nat × Nat
  names : String → String → Prop
  move_inj : ∀ s s', keeps s → keeps s' → move s = move s' → s = s'
  soundtrack : names Library.soundtrackRef Library.soundtrackRef
  background : names Library.backgroundRef Library.backgroundRef

/-- The name of a clip in its slot. -/
def refOf (item : Compiler.Item) : String := Clip.ref item.1.1 item.1.2 (some item.2)

/-- The names that belong together where clips become others: those of one clip, and that of the
soundtrack or the background with itself. -/
def namesUnder (f : Compiler.Item → Compiler.Item) (items : List Compiler.Item)
    (ref ref' : String) : Prop :=
  (ref = ref' ∧ ref ∈ [Library.soundtrackRef, Library.backgroundRef]) ∨
    ∃ item ∈ items, ref = refOf item ∧ ref' = refOf (f item)

namespace Edit

variable (e : Edit) {l : Library} {files : Files} {t t' : Timeline}

/-- A clip that stays: only its slot and its id may differ. -/
structure Kept (item item' : Compiler.Item) : Prop where
  keeps : e.keeps item.1
  slot : item'.1 = e.move item.1
  clip : item'.2 = { item.2 with id := item'.2.id }
  ref : e.names (refOf item) (refOf item')

theorem Kept.content {e : Edit} {item item' : Compiler.Item} (h : e.Kept item item') :
    item'.2.content = item.2.content := by
  rw [h.clip]

/-- A clip that is left out: an image or a video whose file is not there. -/
structure Omitted (l : Library) (files : Files) (item : Compiler.Item) : Prop where
  keeps : ¬e.keeps item.1
  absent : ∃ m, item.2.content.media? = some m ∧ l.find? files m.source = none

/-- The asset of something that stays. -/
structure KeptAsset (a a' : Asset) : Prop where
  alike : a.Alike e.names a'
  slot : a'.slot = a.slot.map e.move
  keeps : ∀ s, a.slot = some s → e.keeps s

/-- The asset of a clip that is left out. -/
structure OmittedAsset (a : Asset) : Prop where
  absent : a.path = none
  slot : ∃ s, a.slot = some s ∧ ¬e.keeps s

/-- The edit takes a timeline to another, which is the same but for the clips. -/
structure Takes (l : Library) (files : Files) (t t' : Timeline) : Prop where
  slots : Thinned e.Kept (e.Omitted l files) t.slots t'.slots
  others : t' = { t with tracks := t'.tracks }

theorem Takes.size {e : Edit} (h : e.Takes l files t t') :
    t'.width = t.width ∧ t'.height = t.height := by
  rw [h.others]
  exact ⟨rfl, rfl⟩

end Edit

/-- Inputs that differ in their reference. -/
structure Input.Alike (Q : String → String → Prop) (i i' : Input) : Prop where
  path : i.path = i'.path
  options : i.options = i'.options
  ref : Option.Rel Q i.ref i'.ref

/-! ## Assets -/

namespace Library

variable {l : Library} {files : Files}

/-- An asset does not depend on its name and its slot. -/
theorem asset_renamed (l : Library) (files : Files) (ref ref' source : String) (kind : AssetKind)
    (slot slot' : Option (Nat × Nat)) :
    l.asset files ref' source kind slot' =
      (l.asset files ref source kind slot).map fun a => { a with ref := ref', slot := slot' } := by
  unfold asset
  cases l.find? files source with
  | none => rfl
  | some p =>
    simp only
    split
    · unfold probe
      cases kind with
      | image =>
        simp only
        split <;> rfl
      | video | audio =>
        simp only
        split <;> rfl
    · rfl

theorem agree_asset {e : Edit} {ref ref' source : String} {kind : AssetKind}
    {slot slot' : Option (Nat × Nat)} (href : e.names ref ref') (hslot : slot' = slot.map e.move)
    (keeps : ∀ s, slot = some s → e.keeps s) :
    Agree e.KeptAsset (l.asset files ref source kind slot)
      (l.asset files ref' source kind slot') := by
  rw [asset_renamed l files ref ref' source kind slot slot']
  cases h : l.asset files ref source kind slot with
  | error f => exact .error f
  | ok a =>
    have outlined := asset_ok h
    have hr : a.ref = ref := congrArg Asset.ref outlined
    have hs : a.slot = slot := congrArg Asset.slot outlined
    exact .ok ⟨⟨by rw [hr]; exact href, rfl⟩, by rw [hs]; exact hslot, by rw [hs]; exact keeps⟩

end Library

namespace Edit

variable {e : Edit} {l : Library} {files : Files} {t t' : Timeline}

theorem thinned_number {as as' : List Asset} (h : Thinned e.KeptAsset e.OmittedAsset as as')
    (n : Int) :
    Thinned e.KeptAsset e.OmittedAsset (Library.number n as) (Library.number n as') := by
  induction h generalizing n with
  | nil => exact .nil
  | @keep a a' as as' counterpart _ ih =>
    have found : a'.isFound = a.isFound := by rw [counterpart.alike.same]; rfl
    rw [Library.number, Library.number, found]
    split
    · refine .keep ⟨⟨counterpart.alike.ref, ?_⟩, counterpart.slot, counterpart.keeps⟩ (ih (n + 1))
      have same := counterpart.alike.same
      rw [same]
    · exact .keep counterpart (ih n)
  | drop dropped _ ih =>
    rw [Library.number, if_neg (by simp [Asset.isFound, dropped.absent])]
    exact .drop dropped (ih n)

/-- Resolving an edited timeline fails in the same way, or it gives the counterparts of the assets,
without those of the clips that are left out. -/
theorem agree_assets (h : e.Takes l files t t') :
    Agree (Thinned e.KeptAsset e.OmittedAsset) (l.assets files t) (l.assets files t') := by
  have soundtrack : t'.soundtrack = t.soundtrack := by rw [h.others]
  unfold Library.assets
  refine (h.slots.filterMapM (T := e.KeptAsset) (U := e.OmittedAsset) ?_ ?_).bind ?_
  · intro item item' kept
    simp only [kept.content]
    cases Library.wanted? item.2.content with
    | none => exact .ok .none
    | some w =>
      refine (Library.agree_asset kept.ref ?_ ?_).map fun a a' related => .some related
      · exact congrArg some kept.slot
      · rintro s ⟨⟩
        exact kept.keeps
  · intro item omitted
    obtain ⟨m, media, absent⟩ := omitted.absent
    have wanted : ∃ kind, Library.wanted? item.2.content = some (kind, m.source) := by
      cases hc : item.2.content <;> simp_all [Content.media?, Library.wanted?]
    obtain ⟨kind, wanted⟩ := wanted
    simp only [wanted, Library.asset, absent]
    exact ⟨_, rfl, rfl, item.1, rfl, omitted.keeps⟩
  · intro clips clips' thinned
    have numbered {sounds sounds' : List Asset}
        (related : Thinned e.KeptAsset e.OmittedAsset sounds sounds') :
        Agree (Thinned e.KeptAsset e.OmittedAsset)
          (Except.ok (ε := Fault) (Library.number 1 (clips ++ sounds)))
          (.ok (Library.number 1 (clips' ++ sounds'))) :=
      .ok (thinned_number (thinned.append related) 1)
    rw [soundtrack]
    cases t.soundtrack.join with
    | none => exact numbered .nil
    | some s =>
      have sound : Agree (Thinned e.KeptAsset e.OmittedAsset)
          ((l.asset files Library.soundtrackRef s.source .audio none).map ([·]))
          ((l.asset files Library.soundtrackRef s.source .audio none).map ([·])) :=
        (Library.agree_asset e.soundtrack rfl (by simp)).map fun a a' related =>
          .keep related .nil
      exact sound.bind fun _ _ => numbered

/-! ## Looking assets up -/

section
variable {assets assets' : List Asset} (h : Thinned e.KeptAsset e.OmittedAsset assets assets')
include h

/-- The assets of a clip that stays. -/
theorem rel_assetAt {item item' : Compiler.Item} (kept : e.Kept item item') :
    Option.Rel e.KeptAsset (Compiler.assetAt assets item.1) (Compiler.assetAt assets' item'.1) := by
  refine h.reverse.find? (fun a a' related => ?_) fun a omitted => ?_
  · rw [related.slot, kept.slot]
    cases hs : a.slot with
    | none => rfl
    | some s =>
      have : e.move s = e.move item.1 ↔ s = item.1 :=
        ⟨e.move_inj s item.1 (related.keeps s hs) kept.keeps, congrArg e.move⟩
      simp [this]
  · obtain ⟨s, hs, lost⟩ := omitted.slot
    rw [hs, beq_eq_false_iff_ne]
    rintro ⟨⟩
    exact lost kept.keeps

/-- The asset of a clip that is left out has no file. -/
theorem absent_assetAt {item : Compiler.Item} (omitted : e.Omitted l files item) :
    ∀ a ∈ Compiler.assetAt assets item.1, a.isFound = false := by
  intro a ha
  obtain ⟨mem, slot⟩ := Compiler.mem_of_assetAt ha
  rcases h.of_mem mem with ⟨a', -, kept⟩ | lost
  · exact absurd (kept.keeps item.1 slot) omitted.keeps
  · simp [Asset.isFound, lost.absent]

/-- The soundtracks. -/
theorem rel_soundtrack :
    Option.Rel e.KeptAsset (assets.find? (·.isSoundtrack)) (assets'.find? (·.isSoundtrack)) := by
  refine h.find? (fun a a' related => ?_) fun a omitted => ?_
  · unfold Asset.isSoundtrack
    rw [related.slot, Option.isNone_map, related.alike.same]
  · obtain ⟨s, hs, -⟩ := omitted.slot
    rw [Asset.isSoundtrack, hs]
    rfl

/-- The assets with a file, which all stay. -/
theorem forall₂_withFiles :
    List.Forall₂ (fun x y => e.KeptAsset x.1 y.1 ∧ x.2 = y.2) (Library.withFiles assets)
      (Library.withFiles assets') := by
  refine h.filterMap (fun a a' related => ?_) fun a omitted => by rw [omitted.absent]; rfl
  have path : a'.path = a.path := by rw [related.alike.same]
  rw [path]
  cases a.path with
  | none => exact .none
  | some p => exact .some ⟨related, rfl⟩

end

/-- The inputs of assets with a file. -/
theorem forall₂_inputsFrom {found found' : List (Asset × String)}
    (h : List.Forall₂ (fun x y => e.KeptAsset x.1 y.1 ∧ x.2 = y.2) found found') {n : Nat}
    {inputs : List Input} (registered : Compiler.inputsFrom n found = .ok inputs) :
    ∃ inputs', Compiler.inputsFrom n found' = .ok inputs' ∧
      List.Forall₂ (Input.Alike e.names) inputs inputs' := by
  induction h generalizing n inputs with
  | nil =>
    cases registered
    exact ⟨[], rfl, .nil⟩
  | @cons x y found found' first _ ih =>
    obtain ⟨a, p⟩ := x
    obtain ⟨a', p'⟩ := y
    obtain ⟨related, rfl⟩ : e.KeptAsset a a' ∧ p = p' := first
    have index : a'.inputIndex = a.inputIndex := by rw [related.alike.same]
    have options : Compiler.inputOptions a' = Compiler.inputOptions a := by
      rw [related.alike.same]
      rfl
    rw [Compiler.inputsFrom] at registered
    split at registered
    · rename_i numbered
      obtain ⟨rest, hrest, made⟩ := Graph.except_bind_ok.1 registered
      cases made
      obtain ⟨rest', hrest', alike⟩ := ih hrest
      refine ⟨⟨p, Compiler.inputOptions a', some a'.ref⟩ :: rest', ?_,
        .cons ⟨rfl, options.symm, .some related.alike.ref⟩ alike⟩
      rw [Compiler.inputsFrom, if_pos (index.trans numbered), hrest']
      rfl
    · cases registered

/-- The inputs of the assets. -/
theorem rel_inputs {assets assets' : List Asset} (h : l.assets files t = .ok assets)
    (h' : l.assets files t' = .ok assets')
    (thinned : Thinned e.KeptAsset e.OmittedAsset assets assets') :
    ∃ inputs inputs', Compiler.inputsFrom 1 (Compiler.found assets) = .ok inputs ∧
      Compiler.inputsFrom 1 (Compiler.found assets') = .ok inputs' ∧
      List.Forall₂ (Input.Alike e.names) inputs inputs' := by
  obtain ⟨inputs, registered⟩ := Library.inputsFrom_resolved h
  obtain ⟨as, rfl⟩ := (Library.assets_ok h).1
  obtain ⟨as', rfl⟩ := (Library.assets_ok h').1
  have found := forall₂_withFiles thinned
  rw [← Library.found_number, ← Library.found_number] at found
  obtain ⟨inputs', registered', alike⟩ := forall₂_inputsFrom found registered
  exact ⟨inputs, inputs', registered, registered', alike⟩

/-- The background is the same. -/
theorem agree_background (h : e.Takes l files t t') :
    Agree (Option.Rel (Asset.Alike e.names)) (l.background files t) (l.background files t') := by
  have source : t'.backgroundSource = t.backgroundSource := by
    rw [h.others]
    rfl
  unfold Library.background
  rw [source]
  cases t.backgroundSource with
  | none => exact .ok .none
  | some source =>
    simp only
    split
    · exact .ok .none
    · have nowhere : (none : Option (Nat × Nat)) = none.map e.move := rfl
      refine (Library.agree_asset e.background nowhere (by simp)).bind ?_
      intro a a' related
      have found : a'.isFound = a.isFound := by rw [related.alike.same]; rfl
      have same := related.alike.same
      refine .ok (.some ?_)
      rw [found]
      split
      · exact ⟨related.alike.ref, by rw [same]⟩
      · exact related.alike

end Edit
end Montage
