import Mathlib.Data.List.Forall2
import Montage.Proofs.Graph.Nodes

/-!
# Two graphs built side by side

Two runs of the builders on things that differ only in their names build the same graph up to
names. A name is the label of a stream, which the runs may number differently, or the reference of a
clip. `Node.Alike ρ Q` says that two nodes differ in nothing else: `ρ` takes the labels of the
second to those of the first, and `Q` relates their references.

`Pairs S S' R x y` is the two-run form of a building step: from labels in use that are related by
`S`, the steps `x` and `y` fail in the same way, or both succeed with results related by `R` and
leave labels related by `S'`. It is closed under what builders are made of, so each builder has one
short lemma; the one thing that has to be known of `S` is that labels given out next correspond
(`Follows`).
-/
namespace Montage

/-- Two computations that fail in the same way, or both succeed with related results. -/
inductive Agree {ε α β : Type} (R : α → β → Prop) : Except ε α → Except ε β → Prop
  | ok {a : α} {b : β} (related : R a b) : Agree R (.ok a) (.ok b)
  | error (e : ε) : Agree R (.error e) (.error e)

namespace Agree

variable {ε α β γ δ : Type} {R : α → β → Prop} {R' : γ → δ → Prop} {x : Except ε α}
  {y : Except ε β}

theorem bind (h : Agree R x y) {f : α → Except ε γ} {g : β → Except ε δ}
    (hf : ∀ a b, R a b → Agree R' (f a) (g b)) : Agree R' (x >>= f) (y >>= g) := by
  cases h with
  | ok related => exact hf _ _ related
  | error e => exact .error e

theorem map (h : Agree R x y) {f : α → γ} {g : β → δ} (hf : ∀ a b, R a b → R' (f a) (g b)) :
    Agree R' (x.map f) (y.map g) := by
  cases h with
  | ok related => exact .ok (hf _ _ related)
  | error e => exact .error e

theorem mapError {ε' : Type} (h : Agree R x y) (f : ε → ε') :
    Agree R (x.mapError f) (y.mapError f) := by
  cases h with
  | ok related => exact .ok related
  | error e => exact .error (f e)

theorem mono (h : Agree R x y) {T : α → β → Prop} (hT : ∀ a b, R a b → T a b) : Agree T x y := by
  cases h with
  | ok related => exact .ok (hT _ _ related)
  | error e => exact .error e

/-- If the first succeeds, so does the second. -/
theorem of_ok (h : Agree R x y) {a : α} (hx : x = .ok a) : ∃ b, y = .ok b ∧ R a b := by
  cases h with
  | ok related =>
    cases hx
    exact ⟨_, rfl, related⟩
  | error e => cases hx

end Agree

/-! ## Graphs that differ in names -/

/-- Filters that differ in the labels of their streams and in their reference. -/
structure Filter.Alike (ρ : String → String) (Q : String → String → Prop) (f f' : Filter) :
    Prop where
  operation : f.operation = f'.operation
  options : f.options = f'.options
  inputs : f.inputs = f'.inputs.map ρ
  output : f.output = ρ f'.output
  media : f.media = f'.media
  ref : Option.Rel Q f.ref f'.ref

/-- Nodes of such filters. -/
inductive Node.Alike (ρ : String → String) (Q : String → String → Prop) : Node → Node → Prop
  | mk {f f' : Filter} {ps ps' : List Node} (filter : f.Alike ρ Q f')
      (prelude : List.Forall₂ (Node.Alike ρ Q) ps ps') : Node.Alike ρ Q (.mk f ps) (.mk f' ps')

theorem Node.Alike.filter {ρ : String → String} {Q : String → String → Prop} {n n' : Node}
    (h : n.Alike ρ Q n') : n.filter.Alike ρ Q n'.filter := by
  cases h with
  | mk filter _ => exact filter

theorem Node.Alike.relabel {ρ : String → String} {Q : String → String → Prop} {n n' : Node}
    (h : n.Alike ρ Q n') {label : String} (fixed : ρ label = label) :
    (n.relabel label).Alike ρ Q (n'.relabel label) := by
  cases h with
  | mk filter prelude => exact .mk { filter with output := fixed.symm } prelude

mutual

/-- The filters of such nodes. -/
theorem Node.Alike.flatten {ρ : String → String} {Q : String → String → Prop} : ∀ {n n' : Node},
    n.Alike ρ Q n' → List.Forall₂ (Filter.Alike ρ Q) n.flatten n'.flatten
  | .mk _ _, .mk _ _, .mk filter prelude => by
    rw [Node.flatten, Node.flatten]
    exact List.rel_append (Node.Alike.flattenAll prelude) (.cons filter .nil)

theorem Node.Alike.flattenAll {ρ : String → String} {Q : String → String → Prop} :
    ∀ {ns ns' : List Node}, List.Forall₂ (Node.Alike ρ Q) ns ns' →
      List.Forall₂ (Filter.Alike ρ Q) (Node.flattenAll ns) (Node.flattenAll ns')
  | [], [], .nil => by
    rw [Node.flattenAll]
    exact .nil
  | _ :: _, _ :: _, .cons first rest => by
    rw [Node.flattenAll, Node.flattenAll]
    exact List.rel_append (Node.Alike.flatten first) (Node.Alike.flattenAll rest)

end

/-- Assets that differ in their name and their slot. -/
structure Asset.Alike (Q : String → String → Prop) (a a' : Asset) : Prop where
  ref : Q a.ref a'.ref
  same : a' = { a with ref := a'.ref, slot := a'.slot }

namespace Graph

/-- Voices of such assets. -/
structure Voice.Alike (Q : String → String → Prop) (v v' : Voice) : Prop where
  asset : v.asset.Alike Q v'.asset
  start : v.start = v'.start
  length : v.length = v'.length
  volume : v.volume = v'.volume

variable {α β γ δ : Type} {ρ : String → String} {Q : String → String → Prop}
  {S S' S'' : Labels → Labels → Prop}

/-! ## Steps side by side -/

/-- Two building steps that fail in the same way, or both succeed with related results. -/
def Pairs (S S' : Labels → Labels → Prop) (R : α → β → Prop) (x : Build α) (y : Build β) : Prop :=
  ∀ ls ls', S ls ls' → Agree (fun p q => R p.1 q.1 ∧ S' p.2 q.2) (x.run ls) (y.run ls')

namespace Pairs

variable {R : α → β → Prop} {R' : γ → δ → Prop}

theorem pure {a : α} {b : β} (h : R a b) : Pairs S S R (pure a) (pure b) :=
  fun _ _ hs => .ok ⟨h, hs⟩

theorem bind {x : Build α} {y : Build β} {f : α → Build γ} {g : β → Build δ}
    (h : Pairs S S' R x y) (hf : ∀ a b, R a b → Pairs S' S'' R' (f a) (g b)) :
    Pairs S S'' R' (x >>= f) (y >>= g) := by
  intro ls ls' hs
  rw [StateT.run_bind, StateT.run_bind]
  exact (h ls ls' hs).bind fun p q hpq => hf p.1 q.1 hpq.1 p.2 q.2 hpq.2

theorem attempt (x : Except Fault α) :
    Pairs S S (fun a b => a = b ∧ x = .ok a) (attempt x) (attempt x) := by
  intro ls ls' hs
  cases x with
  | ok a => exact .ok ⟨⟨rfl, rfl⟩, hs⟩
  | error f => exact .error _

theorem lift {x : Except Failure α} {y : Except Failure β} (h : Agree R x y) :
    Pairs S S R (liftM x : Build α) (liftM y : Build β) := by
  intro ls ls' hs
  cases h with
  | ok related => exact .ok ⟨related, hs⟩
  | error e => exact .error e

theorem mapM {f : α → Build γ} {g : β → Build δ} {xs : List α} {ys : List β}
    (h : List.Forall₂ (fun x y => Pairs S S R' (f x) (g y)) xs ys) :
    Pairs S S (List.Forall₂ R') (xs.mapM f) (ys.mapM g) := by
  induction h with
  | nil =>
    rw [List.mapM_nil, List.mapM_nil]
    exact pure .nil
  | cons first _ ih =>
    rw [List.mapM_cons, List.mapM_cons]
    exact first.bind fun a b hab => ih.bind fun as bs habs => pure (.cons hab habs)

/-- A walk along two lists, with a relation of labels that depends on what is still ahead. -/
theorem foldlM {S : List γ → Labels → Labels → Prop} {f : α → γ → Build α} {g : β → δ → Build β}
    (step : ∀ x y rest, R' x y → ∀ a b, R a b → Pairs (S (x :: rest)) (S rest) R (f a x) (g b y))
    {xs : List γ} {ys : List δ} (h : List.Forall₂ R' xs ys) {a : α} {b : β} (hab : R a b) :
    Pairs (S xs) (S []) R (xs.foldlM f a) (ys.foldlM g b) := by
  induction h generalizing a b with
  | nil => exact pure hab
  | cons first _ ih =>
    rw [List.foldlM_cons, List.foldlM_cons]
    exact (step _ _ _ first a b hab).bind fun a b hab => ih hab

end Pairs

/-! ## Labels that correspond -/

/-- The stems of the labels inside nodes. -/
def innerStems : List String :=
  mediaStems ++ ["bg", "box", "atrim", "apts", "avol", "a", "silence", "amix"]

theorem stem_mem_voiceLinks (v : Voice) : ∀ l ∈ voiceLinks v, l.stem ∈ innerStems := by
  unfold voiceLinks
  split <;> simp [innerStems]

/-- The labels given out next inside nodes correspond, and labels without a number stay. -/
structure Follows (ρ : String → String) (S : Labels → Labels → Prop) : Prop where
  fixed : ∀ label, Unnumbered label → ρ label = label
  next : ∀ stem ∈ innerStems, ∀ ls ls', S ls ls' →
    nextLabel stem ls = ρ (nextLabel stem ls') ∧ S (stem :: ls) (stem :: ls')

theorem Follows.fresh (h : Follows ρ S) {stem : String} (hs : stem ∈ innerStems) :
    Pairs S S (fun label label' => label = ρ label') (fresh stem) (fresh stem) :=
  fun ls ls' related => .ok (h.next stem hs ls ls' related)

/-! ## Nodes -/

theorem pairs_textNode {files : Files} {c : Clip} {ref ref' : String} (href : Q ref ref')
    {text : String} {style : TextStyle} {width height : Int} {current output : String} :
    Pairs S S (Node.Alike ρ Q) (textNode files c ref text style width height (ρ current) (ρ output))
      (textNode files c ref' text style width height current output) := by
  unfold textNode
  refine (Pairs.attempt _).bind ?_
  rintro size _ ⟨rfl, -⟩
  exact .pure (.mk ⟨rfl, rfl, rfl, rfl, rfl, .some href⟩ .nil)

section
variable (follows : Follows ρ S)
include follows

theorem pairs_chain (media : Medium) {ref ref' : Option String} (href : Option.Rel Q ref ref')
    (layer : String) {links : List Link} (stems : ∀ l ∈ links, l.stem ∈ innerStems) :
    Pairs S S (fun p q => List.Forall₂ (Node.Alike ρ Q) p.1 q.1 ∧ p.2 = ρ q.2)
      (chain media ref (ρ layer) links) (chain media ref' layer links) := by
  induction links generalizing layer with
  | nil => exact .pure ⟨.nil, rfl⟩
  | cons l rest ih =>
    refine (follows.fresh (stems l List.mem_cons_self)).bind ?_
    rintro _ label rfl
    refine (ih _ fun l hl => stems l (List.mem_cons_of_mem _ hl)).bind ?_
    rintro ⟨nodes, last⟩ ⟨nodes', last'⟩ ⟨hnodes, hlast⟩
    exact .pure ⟨.cons (.mk ⟨rfl, rfl, rfl, rfl, rfl, href⟩ .nil) hnodes, hlast⟩

theorem pairs_mediaNode {c : Clip} {ref ref' : String} (href : Q ref ref') {m : Media}
    {isVideo : Bool} {a : Asset} (numbered : a.inputIndex.isSome) {current output : String} :
    Pairs S S (Node.Alike ρ Q) (mediaNode c ref m isVideo a (ρ current) (ρ output))
      (mediaNode c ref' m isVideo a current output) := by
  obtain ⟨n, hn⟩ := Option.isSome_iff_exists.1 numbered
  unfold mediaNode
  rw [hn]
  refine (Pairs.attempt _).bind ?_
  rintro links _ ⟨rfl, hlinks⟩
  have stems : ∀ l ∈ links, l.stem ∈ innerStems := fun l hl =>
    List.mem_append_left _ (stem_mem_mediaStems hlinks l hl)
  have source : ρ (toString n ++ ":v") = toString n ++ ":v" :=
    follows.fixed _ (unnumbered_of_getLast? (c := 'v') (by simp) rfl)
  have chained := pairs_chain follows .video (.some href) (toString n ++ ":v") stems
  rw [source] at chained
  refine chained.bind ?_
  rintro ⟨prelude, layer⟩ ⟨prelude', layer'⟩ ⟨hprelude, hlayer⟩
  obtain rfl : layer = ρ layer' := hlayer
  exact .pure (.mk ⟨rfl, rfl, rfl, rfl, rfl, .some href⟩ hprelude)

theorem pairs_shapeNode {c : Clip} {ref ref' : String} (href : Q ref ref') {s : Shape}
    {current output : String} :
    Pairs S S (Node.Alike ρ Q) (shapeNode c ref s (ρ current) (ρ output))
      (shapeNode c ref' s current output) := by
  unfold shapeNode
  refine (Pairs.attempt _).bind ?_
  rintro boxes _ ⟨rfl, -⟩
  split
  · exact .pure (.mk ⟨rfl, rfl, rfl, rfl, rfl, .some href⟩ .nil)
  · have stems : ∀ l ∈ boxes.dropLast.map fun options => (⟨"drawbox", options, "box"⟩ : Link),
        l.stem ∈ innerStems := by
      intro l hl
      obtain ⟨options, -, rfl⟩ := List.mem_map.1 hl
      exact (by decide : "box" ∈ innerStems)
    refine (pairs_chain follows .video (.some href) _ stems).bind ?_
    rintro ⟨prelude, layer⟩ ⟨prelude', layer'⟩ ⟨hprelude, hlayer⟩
    obtain rfl : layer = ρ layer' := hlayer
    exact .pure (.mk ⟨rfl, rfl, rfl, rfl, rfl, .some href⟩ hprelude)

/-! ## Sound -/

theorem pairs_voiceNode {v v' : Voice} (h : v.Alike Q v') :
    Pairs S S (Node.Alike ρ Q) (voiceNode v) (voiceNode v') := by
  have links : voiceLinks v' = voiceLinks v := by
    unfold voiceLinks
    rw [h.length, h.volume]
  have index : v'.asset.inputIndex = v.asset.inputIndex := by rw [h.asset.same]
  have source : ρ (inputText v.asset.inputIndex ++ ":a") = inputText v.asset.inputIndex ++ ":a" :=
    follows.fixed _ (unnumbered_of_getLast? (c := 'a') (by simp) rfl)
  have chained := pairs_chain follows .audio (.some h.asset.ref)
    (inputText v.asset.inputIndex ++ ":a") (stem_mem_voiceLinks v)
  rw [source] at chained
  unfold voiceNode
  rw [links, index, ← h.start]
  refine chained.bind ?_
  rintro ⟨prelude, layer⟩ ⟨prelude', layer'⟩ ⟨hprelude, hlayer⟩
  obtain rfl : layer = ρ layer' := hlayer
  refine (Pairs.attempt _).bind ?_
  rintro delay _ ⟨rfl, -⟩
  refine (follows.fresh (by decide)).bind ?_
  rintro _ label rfl
  exact .pure (.mk ⟨rfl, rfl, rfl, rfl, rfl, .some h.asset.ref⟩ hprelude)

theorem pairs_silence (sampleRate : Number) (total : String) :
    Pairs S S (List.Forall₂ (Node.Alike ρ Q)) (silence sampleRate total)
      (silence sampleRate total) := by
  have sound : soundLabel = ρ soundLabel := (follows.fixed _ (by decide)).symm
  unfold silence
  refine (follows.fresh (by decide)).bind ?_
  rintro _ label rfl
  exact .pure (.cons (.mk ⟨rfl, rfl, rfl, sound, rfl, .none⟩
    (.cons (.mk ⟨rfl, rfl, rfl, rfl, rfl, .none⟩ .nil) .nil)) .nil)

theorem pairs_mix {voices voices' : List Voice} (h : List.Forall₂ (Voice.Alike Q) voices voices')
    (total : String) :
    Pairs S S (List.Forall₂ (Node.Alike ρ Q)) (mix voices total) (mix voices' total) := by
  have sound : soundLabel = ρ soundLabel := (follows.fixed _ (by decide)).symm
  unfold mix
  refine (Pairs.mapM (h.imp fun v v' => pairs_voiceNode follows)).bind fun nodes nodes' hnodes => ?_
  have outputs : nodes.map (·.filter.output) = (nodes'.map (·.filter.output)).map ρ := by
    rw [List.map_map]
    induction hnodes with
    | nil => rfl
    | cons first _ ih => rw [List.map_cons, List.map_cons, first.filter.output, ih]; rfl
  refine (follows.fresh (by decide)).bind ?_
  rintro _ label rfl
  refine .pure (List.rel_append hnodes (.cons (.mk ⟨rfl, ?_, outputs, rfl, rfl, .none⟩ .nil)
    (.cons (.mk ⟨rfl, rfl, rfl, sound, rfl, .none⟩ .nil) .nil)))
  rw [outputs, List.length_map]

end

end Graph
end Montage
