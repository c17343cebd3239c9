import Mathlib.Data.List.Induction

/-!
Settings in layers: a later layer overrides what the earlier ones set.

An update takes a layer into a configuration. Where it lets the layer override a setting, folding it
over layers leaves the value of the last one that sets it; where it ignores the setting, the value of
the start is left.
-/

namespace Rebuilderd.Lib

variable {σ α : Type} {update : σ → σ → σ} {get : σ → Option α} {a : σ} {layers : List σ}

/-- The value that the last layer to set it gives. -/
def lastSet (get : σ → Option α) (layers : List σ) : Option α := layers.reverse.findSome? get

lemma lastSet_concat {layer : σ} :
    lastSet get (layers ++ [layer]) = (get layer).or (lastSet get layers) := by
  rw [lastSet, List.reverse_append, List.reverse_singleton, List.singleton_append,
    List.findSome?_cons]
  rcases get layer with _ | x <;> rfl

lemma lastSet_eq_none : lastSet get layers = none ↔ ∀ layer ∈ layers, get layer = none := by
  rw [lastSet, List.findSome?_eq_none_iff]
  simp

/-- The update takes the setting from the layer, if that sets it. -/
def Overrides (update : σ → σ → σ) (get : σ → Option α) : Prop :=
  ∀ a layer, get (update a layer) = (get layer).or (get a)

/-- The update keeps the setting, whatever the layer says. -/
def Ignores (update : σ → σ → σ) (get : σ → Option α) : Prop :=
  ∀ a layer, get (update a layer) = get a

lemma Overrides.get_foldl (h : Overrides update get) :
    get (layers.foldl update a) = (lastSet get layers).or (get a) := by
  induction layers using List.reverseRecOn with
  | nil => rfl
  | append_singleton layers layer ih =>
    rw [List.foldl_append, List.foldl_cons, List.foldl_nil, h, ih, lastSet_concat, Option.or_assoc]

lemma Ignores.get_foldl (h : Ignores update get) : get (layers.foldl update a) = get a := by
  induction layers using List.reverseRecOn with
  | nil => rfl
  | append_singleton layers layer ih =>
    rw [List.foldl_append, List.foldl_cons, List.foldl_nil, h, ih]

/-- A setting that is ignored is right only if no layer sets it. -/
lemma Ignores.get_foldl_iff (h : Ignores update get) (ha : get a = none) :
    get (layers.foldl update a) = (lastSet get layers).or (get a) ↔ lastSet get layers = none := by
  rw [h.get_foldl, ha, Option.or_none]
  exact eq_comm

end Rebuilderd.Lib
