import Rebuilderd.Lib.Table

/-!
Upserts, one after the other.

Besides its primary key, a row has a key by which writes find it. Whatever else is written in
between, a row ends as the last write of its key leaves it, so writing everything once more changes
nothing.
-/

namespace Rebuilderd.Lib

/-- Writes of type `ω` to rows of type `ρ`: a later write of a key overwrites an earlier one. -/
structure Upserts (ρ ω κ : Type) [Row ρ] where
  of : ω → κ
  keyOf : ρ → κ
  make : ω → ℕ → ρ
  write : ω → ρ → ρ
  key_make : ∀ w n, key (make w n) = n
  key_write : ∀ w r, key (write w r) = key r
  keyOf_make : ∀ w n, keyOf (make w n) = of w
  keyOf_write : ∀ w r, keyOf r = of w → keyOf (write w r) = of w
  write_make : ∀ w n, write w (make w n) = make w n
  write_write : ∀ w w' r, write w (write w' r) = write w r

namespace Upserts

variable {ρ ω κ : Type} [Row ρ] [DecidableEq κ] (u : Upserts ρ ω κ)

/-- One upsert. -/
def one (t : Table ρ) (w : ω) : Table ρ :=
  (t.upsert (fun r => decide (u.keyOf r = u.of w)) (u.make w) (u.write w) (u.key_make w) (u.key_write w)).2

def all (ws : List ω) (t : Table ρ) : Table ρ := ws.foldl u.one t

/-- The last write of a key. -/
def last (ws : List ω) (k : κ) : Option ω := (ws.filter fun w => decide (u.of w = k)).getLast?

/-- A row after the last write of its key. -/
def after (ws : List ω) (r : ρ) : ρ := (u.last ws (u.keyOf r)).elim r fun w => u.write w r

variable {ws : List ω} {w : ω} {r : ρ} {t : Table ρ} {k : κ}

lemma all_append (ws : List ω) (w : ω) (t : Table ρ) :
    u.all (ws ++ [w]) t = u.one (u.all ws t) w := by
  simp [all]

/-! ### The last write -/

variable {u}

lemma last_append_self : u.last (ws ++ [w]) (u.of w) = some w := by
  simp [last]

lemma last_append_of_ne (h : u.of w ≠ k) : u.last (ws ++ [w]) k = u.last ws k := by
  simp [last, h]

lemma of_last (h : u.last ws k = some w) : w ∈ ws ∧ u.of w = k := by
  obtain ⟨hw, hk⟩ := List.mem_filter.mp (List.mem_of_getLast? h)
  exact ⟨hw, by simpa using hk⟩

lemma last_eq_none : u.last ws k = none ↔ ∀ w ∈ ws, u.of w ≠ k := by
  simp [last]

lemma after_append_of_eq (h : u.keyOf r = u.of w) : u.after (ws ++ [w]) r = u.write w r := by
  rw [after, h, last_append_self]
  rfl

lemma after_append_of_ne (h : u.keyOf r ≠ u.of w) : u.after (ws ++ [w]) r = u.after ws r := by
  rw [after, after, last_append_of_ne (Ne.symm h)]

lemma after_of_none (h : ∀ w ∈ ws, u.of w ≠ u.keyOf r) : u.after ws r = r := by
  rw [after, last_eq_none.mpr h]
  rfl

lemma keyOf_after (ws : List ω) (r : ρ) : u.keyOf (u.after ws r) = u.keyOf r := by
  unfold after
  rcases h : u.last ws (u.keyOf r) with _ | w
  · rfl
  · have hw := (of_last h).2
    exact (u.keyOf_write w r hw.symm).trans hw

/-- A write overwrites all earlier ones. -/
lemma write_after (w : ω) (ws : List ω) (r : ρ) : u.write w (u.after ws r) = u.write w r := by
  unfold after
  rcases u.last ws (u.keyOf r) with _ | w'
  · rfl
  · exact u.write_write w w' r

/-! ### The rows -/

/-- The rows after one upsert: those of the key are written, or there is a new one. -/
lemma one_cases (t : Table ρ) (w : ω) :
    ((∃ r ∈ t.rows, u.keyOf r = u.of w) ∧
      (u.one t w).rows = t.rows.map fun r => if u.keyOf r = u.of w then u.write w r else r) ∨
    ((∀ r ∈ t.rows, u.keyOf r ≠ u.of w) ∧ (u.one t w).rows = t.rows ++ [u.make w (t.seq + 1)]) := by
  unfold one
  rcases Table.upsert_cases t (fun r => decide (u.keyOf r = u.of w)) (u.make w) (u.write w) (u.key_make w)
    (u.key_write w) with ⟨r, hr, hk, h⟩ | ⟨hnone, h⟩ <;> rw [h]
  · exact .inl ⟨⟨r, hr, by simpa using hk⟩, by simp⟩
  · exact .inr ⟨fun r hr => by simpa using hnone r hr, rfl⟩

lemma exists_one (h : ∃ r ∈ t.rows, u.keyOf r = k) : ∃ r ∈ (u.one t w).rows, u.keyOf r = k := by
  obtain ⟨r, hr, rfl⟩ := h
  rcases one_cases (u := u) t w with ⟨-, hrows⟩ | ⟨-, hrows⟩ <;> rw [hrows]
  · refine ⟨_, List.mem_map.mpr ⟨r, hr, rfl⟩, ?_⟩
    split
    · rename_i hk
      exact (u.keyOf_write w r hk).trans hk.symm
    · rfl
  · exact ⟨r, List.mem_append_left _ hr, rfl⟩

lemma exists_one_self (t : Table ρ) (w : ω) : ∃ r ∈ (u.one t w).rows, u.keyOf r = u.of w := by
  rcases one_cases (u := u) t w with ⟨⟨r, hr, hk⟩, -⟩ | ⟨-, hrows⟩
  · exact exists_one ⟨r, hr, hk⟩
  · rw [hrows]
    exact ⟨_, List.mem_append_right _ (List.mem_singleton_self _), u.keyOf_make w _⟩

/-- Every key that was written has a row. -/
lemma exists_all (t : Table ρ) (hw : w ∈ ws) : ∃ r ∈ (u.all ws t).rows, u.keyOf r = u.of w := by
  induction ws using List.reverseRecOn with
  | nil => cases hw
  | append_singleton ws w' ih =>
    rw [all_append]
    rcases List.mem_append.mp hw with hw | hw
    · exact exists_one (ih hw)
    · rw [List.mem_singleton.mp hw]
      exact exists_one_self _ _

/-- **A row is as the last write of its key has left it.** -/
theorem after_all (h : r ∈ (u.all ws t).rows) : u.after ws r = r := by
  induction ws using List.reverseRecOn generalizing r with
  | nil => rfl
  | append_singleton ws w ih =>
    rw [all_append] at h
    rcases one_cases (u := u) (u.all ws t) w with ⟨-, hrows⟩ | ⟨hnone, hrows⟩ <;> rw [hrows] at h
    · obtain ⟨r, hr, rfl⟩ := List.mem_map.mp h
      split
      · rename_i hk
        rw [after_append_of_eq (u.keyOf_write w r hk), u.write_write]
      · rename_i hk
        rw [after_append_of_ne hk, ih hr]
    · rcases List.mem_append.mp h with hr | hr
      · rw [after_append_of_ne (hnone r hr), ih hr]
      · rw [List.mem_singleton.mp hr, after_append_of_eq (u.keyOf_make w _), u.write_make]

/-- What becomes of a row that was there before. -/
lemma after_mem_all (ws : List ω) (h : r ∈ t.rows) : u.after ws r ∈ (u.all ws t).rows := by
  induction ws using List.reverseRecOn with
  | nil => exact h
  | append_singleton ws w ih =>
    rw [all_append]
    rcases one_cases (u := u) (u.all ws t) w with ⟨-, hrows⟩ | ⟨hnone, hrows⟩ <;> rw [hrows]
    · refine List.mem_map.mpr ⟨_, ih, ?_⟩
      rw [keyOf_after]
      split
      · rename_i hk
        rw [write_after, after_append_of_eq hk]
      · rename_i hk
        rw [after_append_of_ne hk]
    · have hne : u.keyOf r ≠ u.of w := keyOf_after (u := u) ws r ▸ hnone _ ih
      rw [after_append_of_ne hne]
      exact List.mem_append_left _ ih

/-- A row of a key that is never written was there before. -/
lemma mem_of_mem_all (h : r ∈ (u.all ws t).rows) (hnone : ∀ w ∈ ws, u.of w ≠ u.keyOf r) :
    r ∈ t.rows := by
  induction ws using List.reverseRecOn with
  | nil => exact h
  | append_singleton ws w ih =>
    have hne : u.of w ≠ u.keyOf r := hnone w (by simp)
    refine ih ?_ fun w hw => hnone w (List.mem_append_left _ hw)
    rw [all_append] at h
    rcases one_cases (u := u) (u.all ws t) w with ⟨-, hrows⟩ | ⟨-, hrows⟩ <;> rw [hrows] at h
    · obtain ⟨r', hr', rfl⟩ := List.mem_map.mp h
      split at hne
      · rename_i hk
        exact absurd (u.keyOf_write w r' hk).symm hne
      · rename_i hk
        rwa [if_neg hk]
    · rcases List.mem_append.mp h with hr | hr
      · exact hr
      · rw [List.mem_singleton.mp hr] at hne
        exact absurd (u.keyOf_make w _).symm hne

/-- **Where every key has a row, nothing is inserted**: each row gets the last write of its key. -/
theorem rows_all (h : ∀ w ∈ ws, ∃ r ∈ t.rows, u.keyOf r = u.of w) :
    (u.all ws t).rows = t.rows.map (u.after ws) := by
  induction ws using List.reverseRecOn with
  | nil => exact (List.map_id _).symm
  | append_singleton ws w ih =>
    have hrows := ih fun w hw => h w (List.mem_append_left _ hw)
    obtain ⟨r, hr, hk⟩ := h w (by simp)
    rw [all_append]
    rcases one_cases (u := u) (u.all ws t) w with ⟨-, hone⟩ | ⟨hnone, -⟩
    · rw [hone, hrows, List.map_map]
      refine List.map_congr_left fun r _ => ?_
      simp only [Function.comp, keyOf_after]
      split
      · rename_i hk
        rw [write_after, after_append_of_eq hk]
      · rename_i hk
        rw [after_append_of_ne hk]
    · refine absurd ((keyOf_after ws r).trans hk) (hnone _ ?_)
      rw [hrows]
      exact List.mem_map.mpr ⟨r, hr, rfl⟩

end Upserts

end Rebuilderd.Lib
