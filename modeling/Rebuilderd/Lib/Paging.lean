import Rebuilderd.Lib.Query

/-!
Listings that come in pages: sorting, comparing rows with a cursor, and walking from page to page.

A walk asks for the rows after the last one it has received, until it receives none. What it yields
is determined by how the listing continues after a cursor.
-/

namespace Rebuilderd.Lib

variable {ρ κ ι α : Type}

/-! ### Sorting -/

section
variable [LinearOrder κ]

/-- `ORDER BY key`; tied rows stay in the order they have. -/
def orderBy (key : ρ → κ) (l : List ρ) : List ρ := l.insertionSort (Order.Preimage key (· ≤ ·))

variable {key : ρ → κ} {l l' : List ρ}

lemma orderBy_perm (key : ρ → κ) (l : List ρ) : (orderBy key l).Perm l :=
  List.perm_insertionSort _ _

@[simp] lemma mem_orderBy {a : ρ} : a ∈ orderBy key l ↔ a ∈ l := (orderBy_perm key l).mem_iff

@[simp] lemma length_orderBy (key : ρ → κ) (l : List ρ) : (orderBy key l).length = l.length :=
  (orderBy_perm key l).length_eq

lemma orderBy_sorted (key : ρ → κ) (l : List ρ) :
    (orderBy key l).Pairwise fun a b => key a ≤ key b :=
  List.pairwise_insertionSort (Order.Preimage key (· ≤ ·)) l

lemma orderBy_strict (h : (l.map key).Nodup) : (orderBy key l).Pairwise fun a b => key a < key b := by
  have hne : (orderBy key l).Pairwise fun a b => key a ≠ key b :=
    List.pairwise_map.mp (((orderBy_perm key l).map key).nodup_iff.mpr h)
  exact ((orderBy_sorted key l).and hne).imp fun hab => lt_of_le_of_ne hab.1 hab.2

/-- A sorted list is the only one of its rows, if their keys are distinct. -/
lemma eq_orderBy (hperm : l'.Perm l) (hsorted : l'.Pairwise fun a b => key a ≤ key b)
    (h : (l.map key).Nodup) : l' = orderBy key l := by
  refine (hperm.trans (orderBy_perm key l).symm).eq_of_pairwise ?_ hsorted (orderBy_sorted key l)
  intro a b ha hb hab hba
  exact List.inj_on_of_nodup_map h (hperm.mem_iff.mp ha) (mem_orderBy.mp hb) (hab.antisymm hba)

lemma orderBy_congr (hperm : l'.Perm l) (h : (l.map key).Nodup) : orderBy key l' = orderBy key l :=
  eq_orderBy ((orderBy_perm key l').trans hperm) (orderBy_sorted key l') h

lemma orderBy_filter (p : ρ → Bool) (h : (l.map key).Nodup) :
    orderBy key (l.filter p) = (orderBy key l).filter p := by
  refine (eq_orderBy ((orderBy_perm key l).filter p) ((orderBy_sorted key l).filter p) ?_).symm
  exact h.sublist (List.filter_sublist.map _)

/-- What is selected from the rows after a cursor, if nothing else is selected. -/
lemma filter_after {done rest : List ρ} {last : ρ} {p good : ρ → Bool}
    (hsorted : (done ++ last :: rest).Pairwise fun a b => key a < key b)
    (hp : ∀ r ∈ done ++ last :: rest, p r = true ↔ good r = true ∧ key last < key r) :
    (done ++ last :: rest).filter p = rest.filter good := by
  obtain ⟨-, hright, hleft⟩ := List.pairwise_append.mp hsorted
  have hdone : done.filter p = [] := by
    refine List.filter_eq_nil_iff.mpr fun r hr hpr => ?_
    exact lt_asymm ((hp r (by simp [hr])).mp hpr).2 (hleft r hr last (by simp))
  have hlast : p last = false := by
    rw [Bool.eq_false_iff]
    intro hpl
    exact lt_irrefl _ ((hp last (by simp)).mp hpl).2
  have hrest : rest.filter p = rest.filter good := by
    refine List.filter_congr fun r hr => ?_
    rw [Bool.eq_iff_iff, hp r (by simp [hr])]
    exact and_iff_left ((List.pairwise_cons.mp hright).1 r hr)
  rw [List.filter_append, hdone, List.filter_cons_of_neg (by simp [hlast]), hrest, List.nil_append]

end

/-! ### Comparing rows with NULLs -/

/-- SQLite values other than NULL and blobs: numbers come before texts. -/
abbrev SqlValue := ℤ ⊕ₗ String

section
variable [LinearOrder α] [LinearOrder ι]

/-- `(x, i) < (y, j)` in SQL: not true when `x` or `y` is NULL. -/
def sqlRowLt (x y : Option α × ι) : Bool :=
  sqlLt x.1 y.1 || (sqlEq x.1 y.1 && decide (x.2 < y.2))

/-- A nullable column and the id, in the order of `ORDER BY`. -/
def rowKey (x : Option α × ι) : WithBot α ×ₗ ι := toLex (nullsFirst x.1, x.2)

/-- Rows with values are compared as they are sorted. -/
lemma sqlRowLt_iff {x y : Option α × ι} :
    sqlRowLt x y = true ↔ (x.1.isSome = true ∧ y.1.isSome = true) ∧ rowKey x < rowKey y := by
  obtain ⟨a, i⟩ := x
  obtain ⟨b, j⟩ := y
  unfold sqlRowLt rowKey
  rw [Prod.Lex.toLex_lt_toLex]
  rcases a with _ | a <;> rcases b with _ | b <;> simp [sqlLt, sqlEq, nullsFirst]

end

/-! ### Walks -/

/-- The pages received by asking for the page at a cursor, the id of the last row received, until
an empty page comes back. `ask k c` is the answer to request number `k`, or nothing if it fails. -/
def walk (ask : ℕ → Option ι → Option (List ρ)) (id : ρ → ι) :
    ℕ → ℕ → Option ι → Option (List (List ρ))
  | 0, _, _ => none
  | fuel + 1, k, cursor => do
    let page ← ask k cursor
    match page.getLast? with
    | none => return [page]
    | some last => return page :: (← walk ask id fuel (k + 1) (some (id last)))

/-- A walk from the start ends, and has received these pages. -/
def Walks (ask : ℕ → Option ι → Option (List ρ)) (id : ρ → ι) (pages : List (List ρ)) : Prop :=
  ∃ fuel, walk ask id fuel 0 none = some pages

/-- A walk from the start ends, and has received these rows. -/
def Yields (ask : ℕ → Option ι → Option (List ρ)) (id : ρ → ι) (rows : List ρ) : Prop :=
  ∃ pages, Walks ask id pages ∧ pages.flatten = rows

/-- A walk from the start ends, and has received every row once, in the order of their keys. -/
def Complete [LinearOrder κ] (ask : ℕ → Option ι → Option (List ρ)) (id : ρ → ι) (key : ρ → κ)
    (rows : List ρ) : Prop :=
  ∃ result, Yields ask id result ∧ result.Perm rows ∧ result.Pairwise fun a b => key a ≤ key b

section
variable {ask : ℕ → Option ι → Option (List ρ)} {id : ρ → ι} {fuel k n : ℕ} {cursor : Option ι}
  {rows page : List ρ} {pages : List (List ρ)} {last : ρ}

lemma walk_nil (h : ask k cursor = some []) : walk ask id (fuel + 1) k cursor = some [[]] := by
  simp [walk, h]

lemma walk_page (h : ask k cursor = some page) (hlast : page.getLast? = some last) :
    walk ask id (fuel + 1) k cursor =
      (walk ask id fuel (k + 1) (some (id last))).map (page :: ·) := by
  simp only [walk, h, Option.bind_eq_bind, Option.bind_some, hlast]
  rcases walk ask id fuel (k + 1) (some (id last)) with _ | rest <;> rfl

/-- More fuel does not change what is received. -/
lemma walk_mono (h : walk ask id fuel k cursor = some pages) (m : ℕ) :
    walk ask id (fuel + m) k cursor = some pages := by
  induction fuel generalizing k cursor pages with
  | zero => cases h
  | succ fuel ih =>
    rw [Nat.succ_add]
    rcases hask : ask k cursor with _ | page
    · simp [walk, hask] at h
    · rcases hlast : page.getLast? with _ | last
      · rw [List.getLast?_eq_none_iff] at hlast
        subst hlast
        rw [walk_nil hask] at h ⊢
        exact h
      · rw [walk_page hask hlast] at h ⊢
        obtain ⟨rest, hrest, rfl⟩ := Option.map_eq_some_iff.mp h
        rw [ih hrest]
        rfl

lemma Walks.unique {pages' : List (List ρ)} (h : Walks ask id pages) (h' : Walks ask id pages') :
    pages = pages' := by
  obtain ⟨m, hm⟩ := h
  obtain ⟨m', hm'⟩ := h'
  have h₁ := walk_mono hm m'
  have h₂ := walk_mono hm' m
  rw [Nat.add_comm] at h₂
  exact Option.some.inj (h₁.symm.trans h₂)

lemma Yields.unique {rows' : List ρ} (h : Yields ask id rows) (h' : Yields ask id rows') :
    rows = rows' := by
  obtain ⟨pages, hpages, rfl⟩ := h
  obtain ⟨pages', hpages', rfl⟩ := h'
  rw [hpages.unique hpages']

/-! ### Walks that lose what is not good

The listing continues after a good row with the good rows, and after any other row with none. -/

variable {good : ρ → Bool} {l : List ρ}

/-- The rows a page selects end with one of them, and the next page goes on from there. -/
lemma filter_split {rest taken : List ρ} (h : rest.filter good = taken ++ [last] ++ rows) :
    ∃ mid rest', rest = mid ++ last :: rest' ∧ good last = true ∧ rest'.filter good = rows := by
  rw [List.append_assoc, List.singleton_append] at h
  obtain ⟨l₁, l₂, rfl, -, h₂⟩ := List.filter_eq_append_iff.mp h
  obtain ⟨l₃, l₄, rfl, -, hgood, hrows⟩ := List.filter_eq_cons_iff.mp h₂
  exact ⟨l₁ ++ l₃, l₄, by simp, hgood, hrows⟩

lemma getLast?_split (h : page.getLast? = some last) : ∃ taken, page = taken ++ [last] := by
  exact List.getLast?_eq_some_iff.mp h

/-- From a good row on, a walk receives all good rows. -/
lemma walk_good (hn : 1 ≤ n)
    (hnext : ∀ k done last rest, l = done ++ last :: rest →
      ask k (some (id last)) = some (if good last then (rest.filter good).take n else []))
    {done rest : List ρ} (hl : l = done ++ last :: rest) (hlast : good last = true)
    (hfuel : rest.length < fuel) :
    ∃ pages, walk ask id fuel k (some (id last)) = some pages ∧ pages.flatten = rest.filter good := by
  induction fuel generalizing k done last rest with
  | zero => cases hfuel
  | succ fuel ih =>
    have hask := hnext k done last rest hl
    rw [hlast, if_pos rfl] at hask
    rcases hend : ((rest.filter good).take n).getLast? with _ | last'
    · rw [List.getLast?_eq_none_iff] at hend
      rw [hend] at hask
      have hnone : rest.filter good = [] := by
        rcases List.take_eq_nil_iff.mp hend with hzero | hnone
        · omega
        · exact hnone
      exact ⟨[[]], walk_nil hask, hnone.symm⟩
    · obtain ⟨taken, htaken⟩ := getLast?_split hend
      have hsplit : rest.filter good = taken ++ [last'] ++ (rest.filter good).drop n := by
        rw [← htaken, List.take_append_drop]
      obtain ⟨mid, rest', rfl, hlast', hrest'⟩ := filter_split hsplit
      have hlength : rest'.length < fuel := by
        simp only [List.length_append, List.length_cons] at hfuel
        omega
      have hl' : l = (done ++ last :: mid) ++ last' :: rest' := by simp [hl]
      obtain ⟨pages, hpages, hflat⟩ := ih hl' hlast' hlength
      refine ⟨_ :: pages, by rw [walk_page hask hend, hpages]; rfl, ?_⟩
      rw [List.flatten_cons, hflat, hrest', List.take_append_drop]

/-- **What a walk yields**: the first page, and all good rows after it if it ends with one. -/
theorem yields_good (hn : 1 ≤ n) (hfirst : ask 0 none = some (l.take n))
    (hnext : ∀ k done last rest, l = done ++ last :: rest →
      ask k (some (id last)) = some (if good last then (rest.filter good).take n else [])) :
    Yields ask id (l.take n ++
      if (l.take n).getLast?.any good then (l.drop n).filter good else []) := by
  rcases hend : (l.take n).getLast? with _ | last
  · rw [List.getLast?_eq_none_iff] at hend
    rw [hend] at hfirst ⊢
    exact ⟨[[]], ⟨1, walk_nil hfirst⟩, rfl⟩
  · obtain ⟨taken, htaken⟩ := getLast?_split hend
    have hl : l = taken ++ last :: l.drop n := by
      have happend := List.take_append_drop n l
      rw [htaken] at happend
      simpa using happend.symm
    rcases hgood : good last with _ | _
    · have hask := hnext 1 taken last (l.drop n) hl
      rw [hgood, if_neg Bool.false_ne_true] at hask
      refine ⟨[l.take n, []], ⟨2, ?_⟩, by simp [hgood]⟩
      rw [walk_page hfirst hend, walk_nil hask]
      rfl
    · obtain ⟨pages, hpages, hflat⟩ := walk_good (k := 1) hn hnext hl hgood (Nat.lt_succ_self _)
      refine ⟨l.take n :: pages, ⟨(l.drop n).length + 1 + 1, ?_⟩, by simp [hgood, hflat]⟩
      rw [walk_page hfirst hend, hpages]
      rfl

/-- **When a walk yields every row**: all are on the first page, or that page ends with a good row
and none but good rows follow. -/
theorem yields_all_iff (hn : 1 ≤ n) (hfirst : ask 0 none = some (l.take n))
    (hnext : ∀ k done last rest, l = done ++ last :: rest →
      ask k (some (id last)) = some (if good last then (rest.filter good).take n else [])) :
    Yields ask id l ↔
      l.length ≤ n ∨ ((l.take n).getLast?.any good = true ∧ ∀ r ∈ l.drop n, good r = true) := by
  have hyields := yields_good hn hfirst hnext
  have hall : Yields ask id l ↔
      (l.drop n) = if (l.take n).getLast?.any good then (l.drop n).filter good else [] := by
    constructor
    · intro h
      have heq := h.unique hyields
      conv at heq => lhs; rw [← List.take_append_drop n l]
      exact List.append_cancel_left heq
    · intro h
      rw [← h, List.take_append_drop] at hyields
      exact hyields
  rw [hall, ← List.drop_eq_nil_iff]
  rcases (l.take n).getLast?.any good with _ | _
  · simp
  · rw [if_pos rfl, eq_comm, List.filter_eq_self]
    constructor
    · exact fun h => .inr ⟨rfl, h⟩
    · rintro (h | ⟨-, h⟩)
      · simp [h]
      · exact h

/-- **When the pages of a sorted listing are complete**: as `yields_all_iff`, for requests that
select the rows after the cursor, of which only the good ones can be compared with it. -/
theorem complete_iff [LinearOrder κ] {key : ρ → κ} (keep : ρ → ρ → Bool) {base : ℕ → List ρ}
    (hn : 1 ≤ n) (hbase : ∀ k, (base k).Perm rows) (hkeys : (rows.map key).Nodup)
    (hfirst : ∀ k, ask k none = some ((orderBy key (base k)).take n))
    (hnext : ∀ k, ∀ last ∈ rows,
      ask k (some (id last)) = some ((orderBy key ((base k).filter (keep last))).take n))
    (hkeep : ∀ last ∈ rows, ∀ r ∈ rows,
      keep last r = true ↔ (good last = true ∧ good r = true) ∧ key last < key r) :
    Complete ask id key rows ↔
      rows.length ≤ n ∨ (((orderBy key rows).take n).getLast?.any good = true ∧
        ∀ r ∈ (orderBy key rows).drop n, good r = true) := by
  have hstart : ask 0 none = some ((orderBy key rows).take n) := by
    rw [hfirst, orderBy_congr (hbase 0) hkeys]
  have hcontinue : ∀ k done last rest, orderBy key rows = done ++ last :: rest →
      ask k (some (id last)) = some (if good last then (rest.filter good).take n else []) := by
    intro k done last rest hl
    have hmem : ∀ r ∈ done ++ last :: rest, r ∈ rows := by
      intro r hr
      rw [← hl] at hr
      exact mem_orderBy.mp hr
    have hlast : last ∈ rows := hmem last (by simp)
    have hsorted := orderBy_strict hkeys
    rw [hl] at hsorted
    have horder :
        orderBy key ((base k).filter (keep last)) = (done ++ last :: rest).filter (keep last) := by
      have hkeys' : ((base k).map key).Nodup := ((hbase k).map key).nodup_iff.mpr hkeys
      rw [orderBy_filter _ hkeys', orderBy_congr (hbase k) hkeys, hl]
    rw [hnext k last hlast, horder]
    rcases hgood : good last with _ | _
    · have hnone : (done ++ last :: rest).filter (keep last) = [] := by
        refine List.filter_eq_nil_iff.mpr fun r hr hkept => ?_
        have hgoods := ((hkeep last hlast r (hmem r hr)).mp hkept).1.1
        rw [hgood] at hgoods
        cases hgoods
      rw [hnone, List.take_nil, if_neg Bool.false_ne_true]
    · rw [if_pos rfl, filter_after hsorted]
      intro r hr
      rw [hkeep last hlast r (hmem r hr), hgood]
      simp only [true_and]
  rw [← length_orderBy key rows, ← yields_all_iff hn hstart hcontinue]
  constructor
  · rintro ⟨result, hyields, hperm, hsorted⟩
    rw [← eq_orderBy hperm hsorted hkeys]
    exact hyields
  · intro h
    exact ⟨orderBy key rows, h, orderBy_perm key rows, orderBy_sorted key rows⟩

/-! ### Where the good rows are -/

/-- The good rows come last, if none but good rows follow a good row. -/
lemma good_last (h : l.Pairwise fun a b => good a = true → good b = true) :
    l = l.filter (!good ·) ++ l.filter good := by
  induction l with
  | nil => rfl
  | cons a l ih =>
    obtain ⟨ha, hl⟩ := List.pairwise_cons.mp h
    rcases hgood : good a with _ | _
    · rw [List.filter_cons_of_pos (by simp [hgood]), List.filter_cons_of_neg (by simp [hgood]),
        List.cons_append, ← ih hl]
    · have hall : ∀ b ∈ l, good b = true := fun b hb => ha b hb hgood
      have hnone : l.filter (!good ·) = [] := List.filter_eq_nil_iff.mpr (by simpa using hall)
      have hself : l.filter good = l := List.filter_eq_self.mpr hall
      rw [List.filter_cons_of_neg (by simp [hgood]), List.filter_cons_of_pos hgood, hnone, hself]
      rfl

/-- A page that ends among the good rows is followed by good rows only. -/
lemma good_last_iff (h : l.Pairwise fun a b => good a = true → good b = true) :
    (l.length ≤ n ∨ ((l.take n).getLast?.any good = true ∧ ∀ r ∈ l.drop n, good r = true)) ↔
      l.length ≤ n ∨ (l.filter (!good ·)).length < n := by
  have hsplit := good_last h
  have hbad : ∀ r ∈ l.filter (!good ·), good r = false := by simp
  have hgood : ∀ r ∈ l.filter good, good r = true := by simp
  generalize l.filter (!good ·) = bad at *
  generalize l.filter good = goods at *
  subst hsplit
  rcases Nat.lt_or_ge n (bad ++ goods).length with hlong | hshort
  · have hnot : ¬ (bad ++ goods).length ≤ n := by omega
    simp only [hnot, false_or]
    rcases Nat.lt_or_ge bad.length n with hlt | hge
    · -- The first page ends with a good row.
      refine iff_of_true ⟨?_, fun r hr => ?_⟩ hlt
      · have hne : goods.take (n - bad.length) ≠ [] := by
          rw [Ne, List.take_eq_nil_iff, not_or]
          refine ⟨by omega, ?_⟩
          rintro rfl
          simp only [List.append_nil] at hlong
          omega
        rw [List.take_append, List.take_of_length_le hlt.le, List.getLast?_append_of_ne_nil _ hne,
          List.getLast?_eq_some_getLast hne]
        exact hgood _ (List.mem_of_mem_take (List.getLast_mem hne))
      · rw [List.drop_append, List.drop_of_length_le hlt.le, List.nil_append] at hr
        exact hgood r (List.mem_of_mem_drop hr)
    · refine iff_of_false ?_ (by omega)
      rintro ⟨hlast, -⟩
      rw [List.take_append_of_le_length hge] at hlast
      rcases hend : (bad.take n).getLast? with _ | last
      · rw [hend] at hlast
        cases hlast
      · have hmem : last ∈ bad := List.mem_of_mem_take (List.mem_of_getLast? hend)
        rw [hend, Option.any_some, hbad last hmem] at hlast
        cases hlast
  · exact iff_of_true (.inl hshort) (.inl hshort)

/-- If none but good rows come before a good row, a page is followed by good rows only if all
rows are good. -/
lemma good_first_iff (hn : 1 ≤ n) (h : l.Pairwise fun a b => good b = true → good a = true) :
    (l.length ≤ n ∨ ((l.take n).getLast?.any good = true ∧ ∀ r ∈ l.drop n, good r = true)) ↔
      l.length ≤ n ∨ ∀ r ∈ l, good r = true := by
  rcases Nat.lt_or_ge n l.length with hlong | hshort
  · have hnot : ¬ l.length ≤ n := by omega
    simp only [hnot, false_or]
    constructor
    · rintro ⟨-, hdrop⟩ r hr
      have hne : l.drop n ≠ [] := by simpa using hlong
      obtain ⟨b, hb⟩ := List.exists_mem_of_ne_nil _ hne
      rw [← List.take_append_drop n l] at h hr
      rcases List.mem_append.mp hr with htake | hr
      · exact (List.pairwise_append.mp h).2.2 r htake b hb (hdrop b hb)
      · exact hdrop r hr
    · intro hall
      refine ⟨?_, fun r hr => hall r (List.mem_of_mem_drop hr)⟩
      have hne : l.take n ≠ [] := by
        rw [Ne, List.take_eq_nil_iff, not_or]
        refine ⟨by omega, ?_⟩
        rintro rfl
        simp at hlong
      rw [List.getLast?_eq_some_getLast hne]
      exact hall _ (List.mem_of_mem_take (List.getLast_mem hne))
  · exact iff_of_true (.inl hshort) (.inl hshort)

/-- The pages of a sorted listing are complete, if all rows can be compared with the cursor. -/
theorem complete_of_lt [LinearOrder κ] {key : ρ → κ} (keep : ρ → ρ → Bool) {base : ℕ → List ρ}
    (hn : 1 ≤ n) (hbase : ∀ k, (base k).Perm rows) (hkeys : (rows.map key).Nodup)
    (hfirst : ∀ k, ask k none = some ((orderBy key (base k)).take n))
    (hnext : ∀ k, ∀ last ∈ rows,
      ask k (some (id last)) = some ((orderBy key ((base k).filter (keep last))).take n))
    (hkeep : ∀ last ∈ rows, ∀ r ∈ rows, keep last r = true ↔ key last < key r) :
    Complete ask id key rows := by
  have hall : ∀ last ∈ rows, ∀ r ∈ rows,
      keep last r = true ↔ ((fun _ : ρ => true) last = true ∧ (fun _ : ρ => true) r = true) ∧
        key last < key r := by simpa using hkeep
  rw [complete_iff keep hn hbase hkeys hfirst hnext hall, ← length_orderBy key rows,
    good_first_iff hn (List.pairwise_of_forall fun _ _ _ => rfl)]
  exact .inr fun _ _ => rfl

/-! ### Walks during which rows are deleted

`rows k` are the rows at request number `k`. -/

variable [LinearOrder κ] {key : ρ → κ} {rows : ℕ → List ρ} {cursor : Option ρ}

/-- The row comes after the cursor. -/
def follows (key : ρ → κ) (cursor : Option ρ) (r : ρ) : Bool :=
  cursor.all fun last => decide (key last < key r)

lemma follows_some {r : ρ} : follows key (some last) r = true ↔ key last < key r := by
  simp [follows]

lemma follows_trans {r : ρ} (h : follows key cursor last = true)
    (h' : follows key (some last) r = true) : follows key cursor r = true := by
  rcases cursor with _ | c
  · rfl
  · exact follows_some.mpr ((follows_some.mp h).trans (follows_some.mp h'))

lemma length_follows_lt {l : List ρ} (hl : last ∈ l) (h : follows key cursor last = true) :
    (l.filter (follows key (some last))).length < (l.filter (follows key cursor)).length := by
  have hfilter : l.filter (follows key (some last)) =
      (l.filter (follows key cursor)).filter (follows key (some last)) := by
    rw [List.filter_filter]
    refine List.filter_congr fun r _ => ?_
    rw [Bool.eq_iff_iff, Bool.and_eq_true, iff_self_and]
    exact follows_trans h
  rw [hfilter, List.length_filter_lt_length_iff_exists]
  refine ⟨last, List.mem_filter.mpr ⟨hl, h⟩, ?_⟩
  rw [follows_some]
  exact lt_irrefl _

/-- The cursor is one of the rows, unless none of them comes after it. -/
def Usable (key : ρ → κ) (rows : List ρ) (cursor : Option ρ) : Prop :=
  ∀ last ∈ cursor, last ∈ rows ∨ ∀ r ∈ rows, ¬ key last < key r

/-- All rows after the cursor that are there at every request from `k` on are received. -/
def ReceivesAll (key : ρ → κ) (rows : ℕ → List ρ) (k : ℕ) (cursor : Option ρ)
    (pages : List (List ρ)) : Prop :=
  ∀ r, (∀ i < pages.length, r ∈ rows (k + i)) → follows key cursor r = true → r ∈ pages.flatten

/-- The cursors of the requests after request `k` are usable. -/
def CursorsUsable (key : ρ → κ) (rows : ℕ → List ρ) (k : ℕ) (pages : List (List ρ)) : Prop :=
  ∀ i last, pages[i]?.bind List.getLast? = some last → Usable key (rows (k + i + 1)) (some last)

lemma cursorsUsable_nil : CursorsUsable key rows k [[]] := by
  intro i last hlast
  rcases i with _ | i <;> simp at hlast

lemma cursorsUsable_cons (hlast : page.getLast? = some last) :
    CursorsUsable key rows k (page :: pages) ↔
      Usable key (rows (k + 1)) (some last) ∧ CursorsUsable key rows (k + 1) pages := by
  constructor
  · intro h
    refine ⟨h 0 last (by simpa using hlast), fun i last' hlast' => ?_⟩
    have hnext := h (i + 1) last' (by simpa using hlast')
    rwa [Nat.add_right_comm k 1 i]
  · rintro ⟨hfirst, hrest⟩ i last' hlast'
    rcases i with _ | i
    · rw [List.getElem?_cons_zero, Option.bind_some, hlast] at hlast'
      cases hlast'
      exact hfirst
    · have hnext := hrest i last' (by simpa using hlast')
      rwa [Nat.add_right_comm k 1 i] at hnext

/-- What comes after the cursor is on the page, or comes after the last row of the page. -/
lemma receivesAll_cons {shown : List ρ} (hsub : ∀ k, rows (k + 1) ⊆ rows k)
    (hsorted : shown.Pairwise fun a b => key a < key b)
    (hshown : ∀ r, r ∈ shown ↔ r ∈ rows k ∧ follows key cursor r = true)
    (hlast : (shown.take n).getLast? = some last) (hpages : pages ≠ []) :
    ReceivesAll key rows k cursor (shown.take n :: pages) ↔
      ReceivesAll key rows (k + 1) (some last) pages := by
  obtain ⟨taken, htaken⟩ := getLast?_split hlast
  have hsplit := List.take_append_drop n shown
  rw [← hsplit, htaken] at hsorted
  have hlength : 0 < pages.length := List.length_pos_iff.mpr hpages
  constructor
  · intro h r hr hfollows
    have hafter : key last < key r := by simpa [follows] using hfollows
    have hmem : last ∈ shown := List.mem_of_mem_take (List.mem_of_getLast? hlast)
    have hstays : ∀ i < (shown.take n :: pages).length, r ∈ rows (k + i) := by
      intro i hi
      rcases i with _ | i
      · exact hsub k (hr 0 hlength)
      · have hnext := hr i (by simpa using hi)
        rwa [Nat.add_right_comm, Nat.add_assoc] at hnext
    have hcursor := follows_trans ((hshown last).mp hmem).2 hfollows
    rcases List.mem_append.mp (h r hstays hcursor) with hpage | hrest
    · rw [htaken] at hpage
      rcases List.mem_append.mp hpage with hbefore | hself
      · have hpage := (List.pairwise_append.mp hsorted).1
        exact absurd hafter ((List.pairwise_append.mp hpage).2.2 r hbefore last (by simp)).asymm
      · rw [List.mem_singleton.mp hself] at hafter
        exact absurd hafter (lt_irrefl _)
    · exact hrest
  · intro h r hr hfollows
    have hmem : r ∈ shown := (hshown r).mpr ⟨hr 0 (by simp), hfollows⟩
    rw [← hsplit] at hmem
    rw [List.flatten_cons, List.mem_append]
    rcases List.mem_append.mp hmem with hpage | hrest
    · exact .inl hpage
    · refine .inr (h r (fun i hi => ?_) ?_)
      · have hnext := hr (i + 1) (by simpa using hi)
        rwa [← Nat.add_assoc, Nat.add_right_comm] at hnext
      · have hafter := (List.pairwise_append.mp hsorted).2.2 last (by simp) r hrest
        simpa [follows] using hafter

/-- A walk ends, and what it receives is in order. It misses a row that stays if and only if it uses
a cursor that is not usable. -/
lemma walk_shrinking (hn : 1 ≤ n) (hsub : ∀ k, rows (k + 1) ⊆ rows k)
    (hlive : ∀ k cursor, (∀ last ∈ cursor, last ∈ rows k) →
      ∃ shown : List ρ, ask k (cursor.map id) = some (shown.take n) ∧
        shown.Pairwise (fun a b => key a < key b) ∧
        ∀ r, r ∈ shown ↔ r ∈ rows k ∧ follows key cursor r = true)
    (hgone : ∀ k, ∀ last ∈ rows 0, last ∉ rows k → ask k (some (id last)) = some [])
    (hcursor : ∀ last ∈ cursor, last ∈ rows 0)
    (hfuel : ((rows 0).filter (follows key cursor)).length < fuel) :
    ∃ pages, walk ask id fuel k (cursor.map id) = some pages ∧ pages ≠ [] ∧
      pages.flatten.Pairwise (fun a b => key a < key b) ∧
      (∀ r ∈ pages.flatten, follows key cursor r = true) ∧
      (ReceivesAll key rows k cursor pages ↔
        Usable key (rows k) cursor ∧ CursorsUsable key rows k pages) := by
  have hstart : ∀ k, rows k ⊆ rows 0 := by
    intro k
    induction k with
    | zero => exact List.Subset.refl _
    | succ k ih => exact fun r hr => ih (hsub k hr)
  induction fuel generalizing k cursor with
  | zero => cases hfuel
  | succ fuel ih =>
    by_cases hmem : ∀ last ∈ cursor, last ∈ rows k
    · obtain ⟨shown, hask, hsorted, hshown⟩ := hlive k cursor hmem
      have husable : Usable key (rows k) cursor := fun last hlast => .inl (hmem last hlast)
      rcases hend : (shown.take n).getLast? with _ | last
      · -- The page is empty: nothing is after the cursor.
        rw [List.getLast?_eq_none_iff] at hend
        have hnone : shown = [] := by
          rcases List.take_eq_nil_iff.mp hend with hzero | hnone
          · omega
          · exact hnone
        rw [hend] at hask
        refine ⟨[[]], walk_nil hask, by simp, by simp, by simp, ?_⟩
        refine iff_of_true (fun r hr hfollows => ?_) ⟨husable, cursorsUsable_nil⟩
        have hshown' := (hshown r).mpr ⟨hr 0 (by simp), hfollows⟩
        rw [hnone] at hshown'
        cases hshown'
      · have hlast := (hshown last).mp (List.mem_of_mem_take (List.mem_of_getLast? hend))
        have hfuel' : ((rows 0).filter (follows key (some last))).length < fuel := by
          have hshorter := length_follows_lt (hstart k hlast.1) hlast.2
          omega
        have hcursor' : ∀ r ∈ some last, r ∈ rows 0 := by simpa using hstart k hlast.1
        obtain ⟨pages, hpages, hne, hpagesSorted, hafter, hiff⟩ :=
          ih (k := k + 1) hcursor' hfuel'
        refine ⟨shown.take n :: pages, ?_, by simp, ?_, ?_, ?_⟩
        · rw [walk_page hask hend]
          simpa using hpages
        · rw [List.flatten_cons, List.pairwise_append]
          refine ⟨hsorted.sublist (List.take_sublist _ _), hpagesSorted, fun a ha b hb => ?_⟩
          have hb' := follows_some.mp (hafter b hb)
          obtain ⟨taken, htaken⟩ := getLast?_split hend
          have htake := hsorted.sublist (List.take_sublist n shown)
          rw [htaken] at htake ha
          rcases List.mem_append.mp ha with hbefore | hself
          · exact ((List.pairwise_append.mp htake).2.2 a hbefore last (by simp)).trans hb'
          · rw [List.mem_singleton.mp hself]
            exact hb'
        · intro r hr
          rcases List.mem_append.mp hr with hpage | hrest
          · exact ((hshown r).mp (List.mem_of_mem_take hpage)).2
          · exact follows_trans hlast.2 (hafter r hrest)
        · rw [receivesAll_cons hsub hsorted hshown hend hne, hiff, cursorsUsable_cons hend,
            and_iff_right husable]
    · -- The row that is the cursor is gone, and the page is empty.
      push Not at hmem
      obtain ⟨last, hlast, hnot⟩ := hmem
      rw [Option.mem_def] at hlast
      subst hlast
      have hask := hgone k last (hcursor last rfl) hnot
      refine ⟨[[]], walk_nil hask, by simp, by simp, by simp, ?_⟩
      rw [and_iff_left cursorsUsable_nil]
      constructor
      · rintro h last' ⟨⟩
        refine .inr fun r hr hafter => ?_
        have hreceived := h r (fun i hi => ?_) (follows_some.mpr hafter)
        · cases hreceived
        · rw [Nat.lt_one_iff.mp hi]
          exact hr
      · intro h r hr hfollows
        rcases h last rfl with hpresent | hnone
        · exact absurd hpresent hnot
        · exact absurd (follows_some.mp hfollows) (hnone r (hr 0 (by simp)))

end

end Rebuilderd.Lib
