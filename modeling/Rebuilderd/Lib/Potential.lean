import Rebuilderd.Lib.Serial
import Rebuilderd.Lib.Table

/-!
Potentials: a number that pays for what the steps of a run yield.

If no step yields more than the potential falls by, the steps of a run together yield no more than
there was at the start. The potential of a table is a sum over its rows.
-/

namespace Rebuilderd.Lib

section
variable {σ κ : Type} {step : σ → κ → σ} {gain : σ → κ → ℕ} {w : σ → ℕ} {I : σ → Prop}

/-- What the steps of a run yield together. -/
def total (step : σ → κ → σ) (gain : σ → κ → ℕ) : σ → List κ → ℕ
  | _, [] => 0
  | x, c :: cs => gain x c + total step gain (step x c) cs

theorem total_add_le (ok : κ → Prop) (hI : ∀ x c, I x → ok c → I (step x c))
    (hpays : ∀ x c, I x → ok c → gain x c + w (step x c) ≤ w x) {x : σ} (hx : I x) {cs : List κ}
    (hcs : ∀ c ∈ cs, ok c) : total step gain x cs + w (cs.foldl step x) ≤ w x := by
  induction cs generalizing x with
  | nil => exact (Nat.zero_add _).le
  | cons c cs ih =>
    have hc := hcs c List.mem_cons_self
    have hrest := ih (hI x c hx hc) fun c' h' => hcs c' (List.mem_cons_of_mem _ h')
    have hfirst := hpays x c hx hc
    rw [total, List.foldl_cons]
    omega

end

/-! ### Potentials of tables -/

namespace Table

variable {ρ : Type} [Row ρ]

/-- The sum of `f` over the rows of a table. -/
def weight (t : Table ρ) (f : ρ → ℕ) : ℕ := (t.rows.map f).sum

variable {t t' : Table ρ} {f f' : ρ → ℕ}

lemma nodup_rows (t : Table ρ) : t.rows.Nodup :=
  t.sorted.imp fun hlt heq => hlt.ne (congrArg key heq)

/-- Rows with the keys of heavier rows weigh no more. -/
theorem weight_le (h : ∀ r' ∈ t'.rows, ∃ r ∈ t.rows, key r = key r' ∧ f' r' ≤ f r) :
    t'.weight f' ≤ t.weight f := by
  classical
  obtain ⟨g, hg⟩ : ∃ g : ρ → ρ, ∀ r' ∈ t'.rows, g r' ∈ t.rows ∧ key (g r') = key r' ∧
      f' r' ≤ f (g r') := by
    refine ⟨fun r' => if hr : r' ∈ t'.rows then (h r' hr).choose else r', fun r' hr => ?_⟩
    simp only [dif_pos hr]
    exact (h r' hr).choose_spec
  have hnodup : (t'.rows.map g).Nodup := by
    refine t'.nodup_rows.map_on fun a ha b hb hab => eq_of_key ha hb ?_
    rw [← (hg a ha).2.1, ← (hg b hb).2.1, hab]
  have hsub : (t'.rows.map g).Subperm t.rows := by
    refine hnodup.subperm fun r hr => ?_
    obtain ⟨a, ha, rfl⟩ := List.mem_map.mp hr
    exact (hg a ha).1
  obtain ⟨l, hperm, hlist⟩ := hsub
  calc t'.weight f' ≤ (t'.rows.map (f ∘ g)).sum := List.sum_le_sum fun r hr => (hg r hr).2.2
    _ = (l.map f).sum := by rw [← List.map_map, (hperm.map f).sum_eq]
    _ ≤ t.weight f := (hlist.map f).sum_le_sum fun _ _ => Nat.zero_le _

/-- A row that is deleted is paid for. -/
lemma weight_delete {r : ρ} (hr : r ∈ t.rows) {p : ρ → Bool} (hp : p r = true) (f : ρ → ℕ) :
    (t.delete p).weight f + f r ≤ t.weight f := by
  obtain ⟨l, l', hsplit⟩ := List.append_of_mem hr
  have hle (l : List ρ) : ((l.filter fun r => !p r).map f).sum ≤ (l.map f).sum :=
    (List.filter_sublist.map f).sum_le_sum fun _ _ => Nat.zero_le _
  have hl := hle l
  have hl' := hle l'
  unfold weight
  rw [rows_delete, hsplit, List.filter_append, List.filter_cons_of_neg (by simp [hp])]
  simp only [List.map_append, List.map_cons, List.sum_append, List.sum_cons]
  omega

/-- An update that keeps the weight of the rows it writes keeps that of the table. -/
lemma weight_update {p : ρ → Bool} {g : ρ → ρ} {hg} (hf : ∀ r ∈ t.rows, p r = true → f (g r) = f r) :
    (t.update p g hg).weight f = t.weight f :=
  congrArg List.sum (map_rows_update t hf)

lemma weight_skip (t : Table ρ) (f : ρ → ℕ) : t.skip.weight f = t.weight f := rfl

lemma weight_insert (t : Table ρ) (mk : ℕ → ρ) (h) (f : ρ → ℕ) :
    (t.insert mk h).weight f = t.weight f + f (mk (t.seq + 1)) := by
  simp [weight]

end Table

end Rebuilderd.Lib
