import Mathlib

/-!
Tables with an AUTOINCREMENT primary key, as lists of rows in key order.

The key of a new row is larger than every key the table has ever used, so a key that has
been deleted never comes back. The three write operations are those of SQL: insert, update
where, delete where; `upsert` is `INSERT ... ON CONFLICT DO UPDATE`.
-/

namespace Rebuilderd.Lib

/-- Rows with a primary key. -/
class Row (ρ : Type) where
  key : ρ → ℕ

export Row (key)

/-- Rows in key order, and the largest key ever used. -/
@[ext]
structure Table (ρ : Type) [Row ρ] where
  rows : List ρ
  seq : ℕ
  sorted : rows.Pairwise (key · < key ·)
  bound : ∀ r ∈ rows, key r ≤ seq

variable {ρ : Type} [Row ρ]

namespace Table

def empty : Table ρ := ⟨[], 0, .nil, by simp⟩

/-- Insert the row `mk` builds around the next key. -/
def insert (t : Table ρ) (mk : ℕ → ρ) (h : ∀ n, key (mk n) = n := by intro; rfl) : Table ρ where
  rows := t.rows ++ [mk (t.seq + 1)]
  seq := t.seq + 1
  sorted := by
    refine List.pairwise_append.mpr ⟨t.sorted, List.pairwise_singleton _ _, fun a ha b hb => ?_⟩
    rw [List.mem_singleton.mp hb, h]
    exact Nat.lt_succ_of_le (t.bound a ha)
  bound := by
    intro r hr
    rcases List.mem_append.mp hr with hr | hr
    · exact Nat.le_succ_of_le (t.bound r hr)
    · rw [List.mem_singleton.mp hr, h]

/-- Rewrite the rows that satisfy `p` by `f`, which keeps the key. -/
def update (t : Table ρ) (p : ρ → Bool) (f : ρ → ρ) (h : ∀ r, key (f r) = key r := by intro; rfl) :
    Table ρ where
  rows := t.rows.map fun r => if p r then f r else r
  seq := t.seq
  sorted := by
    refine List.pairwise_map.mpr (t.sorted.imp fun {a b} hab => ?_)
    split <;> split <;> simpa [h] using hab
  bound := by
    intro r hr
    obtain ⟨a, ha, rfl⟩ := List.mem_map.mp hr
    split
    · rw [h]; exact t.bound a ha
    · exact t.bound a ha

/-- Remove the rows that satisfy `p`. -/
def delete (t : Table ρ) (p : ρ → Bool) : Table ρ where
  rows := t.rows.filter fun r => !p r
  seq := t.seq
  sorted := t.sorted.filter _
  bound := fun r hr => t.bound r (List.mem_filter.mp hr).1

/-- The next key is used up, and no row gets it. -/
def skip (t : Table ρ) : Table ρ where
  rows := t.rows
  seq := t.seq + 1
  sorted := t.sorted
  bound := fun r hr => Nat.le_succ_of_le (t.bound r hr)

/-- The row that satisfies `p` is rewritten by `f`, and the key that an insert would have taken is
used up; if there is none, `mk` is inserted. Returns the row written. -/
def upsert (t : Table ρ) (p : ρ → Bool) (mk : ℕ → ρ) (f : ρ → ρ)
    (hm : ∀ n, key (mk n) = n := by intro; rfl) (hf : ∀ r, key (f r) = key r := by intro; rfl) :
    ρ × Table ρ :=
  match t.rows.find? p with
  | some r => (f r, (t.update p f hf).skip)
  | none => (mk (t.seq + 1), t.insert mk hm)

/-! ### Rows after each operation -/

@[simp] lemma rows_empty : (empty : Table ρ).rows = [] := rfl
@[simp] lemma seq_empty : (empty : Table ρ).seq = 0 := rfl

variable (t : Table ρ)

@[simp] lemma rows_insert (mk : ℕ → ρ) (h) :
    (t.insert mk h).rows = t.rows ++ [mk (t.seq + 1)] := rfl
@[simp] lemma seq_insert (mk : ℕ → ρ) (h) : (t.insert mk h).seq = t.seq + 1 := rfl
@[simp] lemma rows_update (p : ρ → Bool) (f : ρ → ρ) (h) :
    (t.update p f h).rows = t.rows.map fun r => if p r then f r else r := rfl
@[simp] lemma seq_update (p : ρ → Bool) (f : ρ → ρ) (h) : (t.update p f h).seq = t.seq := rfl
@[simp] lemma rows_delete (p : ρ → Bool) :
    (t.delete p).rows = t.rows.filter fun r => !p r := rfl
@[simp] lemma seq_delete (p : ρ → Bool) : (t.delete p).seq = t.seq := rfl
@[simp] lemma rows_skip : t.skip.rows = t.rows := rfl
@[simp] lemma seq_skip : t.skip.seq = t.seq + 1 := rfl

lemma mem_insert {mk : ℕ → ρ} {h} {r : ρ} :
    r ∈ (t.insert mk h).rows ↔ r ∈ t.rows ∨ r = mk (t.seq + 1) := by
  simp

lemma mem_update {p : ρ → Bool} {f : ρ → ρ} {h} {r : ρ} :
    r ∈ (t.update p f h).rows ↔ ∃ a ∈ t.rows, (if p a then f a else a) = r := by
  simp

lemma mem_delete {p : ρ → Bool} {r : ρ} : r ∈ (t.delete p).rows ↔ r ∈ t.rows ∧ p r = false := by
  simp

/-- A column the update does not write stays as it is. -/
lemma map_rows_update {γ : Type} {p : ρ → Bool} {f : ρ → ρ} {g : ρ → γ}
    (hg : ∀ r ∈ t.rows, p r = true → g (f r) = g r) :
    (t.rows.map fun r => if p r then f r else r).map g = t.rows.map g := by
  rw [List.map_map]
  refine List.map_congr_left fun r hr => ?_
  simp only [Function.comp]
  split
  · rename_i hp
    exact hg r hr hp
  · rfl

variable {t}

/-- A key names one row. -/
lemma eq_of_key {a b : ρ} (ha : a ∈ t.rows) (hb : b ∈ t.rows) (h : key a = key b) : a = b := by
  have hn : (t.rows.map key).Nodup := List.pairwise_map.mpr (t.sorted.imp fun hlt => hlt.ne)
  exact List.inj_on_of_nodup_map hn ha hb h

/-- The rows with the key of a row: the row itself. -/
lemma filter_key {r : ρ} (hr : r ∈ t.rows) : t.rows.filter (key · == key r) = [r] := by
  obtain ⟨rs, rs', hsplit⟩ := List.append_of_mem hr
  have hsorted := t.sorted
  rw [hsplit] at hsorted ⊢
  obtain ⟨-, hright, hleft⟩ := List.pairwise_append.mp hsorted
  have hrs : rs.filter (key · == key r) = [] := by
    refine List.filter_eq_nil_iff.mpr fun x hx => ?_
    simpa using (hleft x hx r (by simp)).ne
  have hrs' : rs'.filter (key · == key r) = [] := by
    refine List.filter_eq_nil_iff.mpr fun x hx => ?_
    simpa using ((List.pairwise_cons.mp hright).1 x hx).ne'
  rw [List.filter_append, List.filter_cons_of_pos (by simp), hrs, hrs', List.nil_append]

/-- The first row with the key of a row: the row itself. -/
lemma find_key {r : ρ} (hr : r ∈ t.rows) : t.rows.find? (key · == key r) = some r := by
  rw [← List.head?_filter, filter_key hr, List.head?_cons]

/-- At most one row has a key. -/
lemma filter_key_cases (t : Table ρ) (k : ℕ) :
    t.rows.filter (key · == k) = [] ∨ ∃ r ∈ t.rows, t.rows.filter (key · == k) = [r] := by
  by_cases h : ∃ r ∈ t.rows, key r = k
  · obtain ⟨r, hr, rfl⟩ := h
    exact .inr ⟨r, hr, filter_key hr⟩
  · refine .inl (List.filter_eq_nil_iff.mpr fun r hr hk => h ⟨r, hr, by simpa using hk⟩)

lemma key_ne_next {r : ρ} (hr : r ∈ t.rows) : key r ≠ t.seq + 1 := by
  have := t.bound r hr; omega

/-- What an upsert does: it rewrites the conflicting row or inserts a new one. -/
lemma upsert_cases (t : Table ρ) (p : ρ → Bool) (mk : ℕ → ρ) (f : ρ → ρ) (hm hf) :
    (∃ r ∈ t.rows, p r = true ∧ t.upsert p mk f hm hf = (f r, (t.update p f hf).skip)) ∨
      ((∀ r ∈ t.rows, p r = false) ∧
        t.upsert p mk f hm hf = (mk (t.seq + 1), t.insert mk hm)) := by
  unfold upsert
  rcases hfind : t.rows.find? p with _ | r
  · right
    refine ⟨fun r hr => ?_, rfl⟩
    simpa using List.find?_eq_none.mp hfind r hr
  · left
    exact ⟨r, List.mem_of_find?_eq_some hfind, List.find?_some hfind, rfl⟩

lemma seq_le_upsert (t : Table ρ) (p : ρ → Bool) (mk : ℕ → ρ) (f : ρ → ρ) (hm hf) :
    t.seq ≤ (t.upsert p mk f hm hf).2.seq := by
  rcases upsert_cases t p mk f hm hf with ⟨r, -, -, h⟩ | ⟨-, h⟩ <;> rw [h] <;> simp

/-! ### Tables that only grow -/

/-- Rows were added to `t`, under new keys. -/
structure Grown (t t' : Table ρ) : Prop where
  seq : t.seq ≤ t'.seq
  rows : ∃ rows, t'.rows = t.rows ++ rows ∧ ∀ r ∈ rows, t.seq < key r

lemma Grown.refl (t : Table ρ) : Grown t t := ⟨le_rfl, [], by simp, by simp⟩

lemma Grown.trans {t t' t'' : Table ρ} (h : Grown t t') (h' : Grown t' t'') : Grown t t'' := by
  obtain ⟨rows, hrows, hnew⟩ := h.rows
  obtain ⟨rows', hrows', hnew'⟩ := h'.rows
  refine ⟨h.seq.trans h'.seq, rows ++ rows', by rw [hrows', hrows, List.append_assoc], fun r hr => ?_⟩
  rcases List.mem_append.mp hr with hr | hr
  · exact hnew r hr
  · exact h.seq.trans_lt (hnew' r hr)

lemma grown_insert (t : Table ρ) (mk : ℕ → ρ) (h) : Grown t (t.insert mk h) := by
  refine ⟨Nat.le_succ _, [mk (t.seq + 1)], rfl, fun r hr => ?_⟩
  rw [List.mem_singleton.mp hr, h]
  exact Nat.lt_succ_self _

end Table

end Rebuilderd.Lib
