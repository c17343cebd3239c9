import Rebuilderd.Lib.Paging

/-!
Walks over a listing in which several rows have the same id.

The rows after a cursor have larger ids. A page that ends between two rows of one id loses the
rest of them; one that ends between two ids loses nothing.
-/

namespace Rebuilderd.Lib

variable {ρ ι : Type} [LinearOrder ι] {id : ρ → ι} {ask : ℕ → Option ι → Option (List ρ)}
  {fuel k n : ℕ} {l shown rows : List ρ} {last : ρ} {cursor : Option ι}

/-- Every page border falls between two ids: it comes after all rows up to some id. -/
def Aligned (id : ρ → ι) (n : ℕ) (l : List ρ) : Prop :=
  ∀ m, (m + 1) * n < l.length → ∃ c, l.countP (fun r => decide (id r ≤ c)) = (m + 1) * n

/-- The rows after the first page. -/
def beyond (id : ρ → ι) (last : ρ) (l : List ρ) : List ρ := l.filter fun r => decide (id last < id r)

/-- The rows up to an id are those up to the last id of the page, and those beyond it. -/
lemma countP_upTo {c : ι} (h : id last ≤ c) :
    l.countP (fun r => decide (id r ≤ c)) =
      l.countP (fun r => decide (id r ≤ id last)) +
        (beyond id last l).countP fun r => decide (id r ≤ c) := by
  induction l with
  | nil => rfl
  | cons a l ih =>
    rcases le_or_gt (id a) (id last) with hle | hlt
    · simp [beyond, hle, hle.trans h, hle.not_gt] at ih ⊢
      omega
    · simp [List.countP_cons, beyond, hlt, hlt.not_ge] at ih ⊢
      omega

lemma length_beyond (id : ρ → ι) (last : ρ) (l : List ρ) :
    l.length = l.countP (fun r => decide (id r ≤ id last)) + (beyond id last l).length := by
  rw [beyond, ← List.countP_eq_length_filter, List.length_eq_countP_add_countP
    (fun r => decide (id r ≤ id last))]
  simp only [decide_eq_true_eq, not_le]

lemma countP_beyond_pos {c : ι} (h : 0 < (beyond id last l).countP fun r => decide (id r ≤ c)) :
    id last ≤ c := by
  obtain ⟨r, hr, hc⟩ := List.countP_pos_iff.mp h
  have hlt : id last < id r := by simpa using (List.mem_filter.mp hr).2
  exact hlt.le.trans (of_decide_eq_true hc)

section
variable (hsorted : shown.Pairwise fun a b => id a ≤ id b) (hlast : (shown.take n).getLast? = some last)
include hsorted hlast

lemma page_le : ∀ r ∈ shown.take n, id r ≤ id last := by
  obtain ⟨taken, htaken⟩ := getLast?_split hlast
  intro r hr
  have htake := hsorted.sublist (List.take_sublist n shown)
  rw [htaken] at htake hr
  rcases List.mem_append.mp hr with hbefore | hself
  · exact (List.pairwise_append.mp htake).2.2 r hbefore last (by simp)
  · rw [List.mem_singleton.mp hself]

/-- The rows up to the last id of a page are those of the page, and what follows with that id. -/
lemma countP_page :
    shown.countP (fun r => decide (id r ≤ id last)) =
      (shown.take n).length + (shown.drop n).countP fun r => decide (id r ≤ id last) := by
  have hpage : (shown.take n).countP (fun r => decide (id r ≤ id last)) = (shown.take n).length :=
    List.countP_eq_length.mpr fun r hr => decide_eq_true (page_le hsorted hlast r hr)
  conv_lhs => rw [← List.take_append_drop n shown]
  rw [List.countP_append, hpage]

/-- Up to a smaller id there are fewer rows than on the page. -/
lemma countP_lt_page {c : ι} (hc : c < id last) :
    shown.countP (fun r => decide (id r ≤ c)) < (shown.take n).length := by
  obtain ⟨taken, htaken⟩ := getLast?_split hlast
  have hsplit : shown = taken ++ [last] ++ shown.drop n := by rw [← htaken, List.take_append_drop]
  have hrest : (shown.drop n).countP (fun r => decide (id r ≤ c)) = 0 := by
    refine List.countP_eq_zero.mpr fun r hr => ?_
    rw [hsplit] at hsorted
    have hle := (List.pairwise_append.mp hsorted).2.2 last (by simp) r hr
    simpa using hc.trans_le hle
  have htakenLe : taken.countP (fun r => decide (id r ≤ c)) ≤ taken.length := List.countP_le_length
  conv_lhs => rw [hsplit]
  rw [htaken, List.countP_append, List.countP_append, hrest, List.countP_singleton,
    if_neg (by simpa using hc), List.length_append, List.length_singleton]
  omega

/-- Beyond the last id of a page are only rows that the page leaves. -/
lemma beyond_shown : beyond id last shown = beyond id last (shown.drop n) := by
  have hpage : (shown.take n).filter (fun r => decide (id last < id r)) = [] := by
    refine List.filter_eq_nil_iff.mpr fun r hr => ?_
    simpa using page_le hsorted hlast r hr
  conv_lhs => rw [← List.take_append_drop n shown]
  rw [beyond, List.filter_append, hpage, List.nil_append, beyond]

/-- If the page ends between two ids, the rows of the page and those beyond it are all rows. -/
lemma page_append_beyond (hperm : shown.Perm l)
    (hrest : (shown.drop n).countP (fun r => decide (id r ≤ id last)) = 0) :
    (shown.take n ++ beyond id last l).Perm l := by
  have hdrop : beyond id last (shown.drop n) = shown.drop n := by
    refine List.filter_eq_self.mpr fun r hr => ?_
    simpa using List.countP_eq_zero.mp hrest r hr
  have hsame : (beyond id last l).Perm (shown.drop n) := by
    rw [← hdrop, ← beyond_shown hsorted hlast]
    exact (hperm.filter _).symm
  refine (hsame.append_left _).trans ?_
  rw [List.take_append_drop]
  exact hperm

/-- If the page ends between two rows of one id, its border is amiss. -/
lemma not_aligned (hperm : shown.Perm l)
    (hrest : 0 < (shown.drop n).countP fun r => decide (id r ≤ id last)) : ¬ Aligned id n l := by
  intro h
  have hlong : n < shown.length := by
    have hpos := hrest.trans_le List.countP_le_length
    rw [List.length_drop] at hpos
    omega
  obtain ⟨c, hc⟩ := h 0 (by rw [← hperm.length_eq]; omega)
  have hpage : (shown.take n).length = n := by rw [List.length_take]; omega
  rw [← hperm.countP_eq] at hc
  rcases lt_or_ge c (id last) with hlt | hge
  · have hfewer := countP_lt_page hsorted hlast hlt
    omega
  · have hcount := countP_page hsorted hlast
    rw [countP_upTo hge] at hc
    omega

/-- If the page ends between two ids, the other borders are those of the rows beyond it. -/
lemma aligned_beyond_iff (hperm : shown.Perm l)
    (hrest : (shown.drop n).countP (fun r => decide (id r ≤ id last)) = 0) :
    Aligned id n (beyond id last l) ↔ Aligned id n l := by
  have hcount := countP_page hsorted hlast
  rw [hrest, Nat.add_zero, hperm.countP_eq] at hcount
  have hlength := length_beyond id last l
  rcases Nat.lt_or_ge n shown.length with hlong | hshort
  · have hpage : (shown.take n).length = n := by rw [List.length_take]; omega
    have hn : 0 < n := by
      rcases n with _ | n
      · rw [List.take_zero] at hlast
        cases hlast
      · exact Nat.succ_pos n
    constructor
    · intro h m hm
      rcases m with _ | m
      · exact ⟨id last, by omega⟩
      · have hmul : (m + 1 + 1) * n = (m + 1) * n + n := Nat.succ_mul _ _
        obtain ⟨c, hc⟩ := h m (by omega)
        have hpos : 0 < (m + 1) * n := Nat.mul_pos (Nat.succ_pos m) hn
        refine ⟨c, ?_⟩
        rw [countP_upTo (countP_beyond_pos (hc.symm ▸ hpos))]
        omega
    · intro h m hm
      have hmul : (m + 1 + 1) * n = (m + 1) * n + n := Nat.succ_mul _ _
      obtain ⟨c, hc⟩ := h (m + 1) (by omega)
      have hge : id last ≤ c := by
        by_contra hlt
        have hfewer := countP_lt_page hsorted hlast (not_le.mp hlt)
        rw [hperm.countP_eq] at hfewer
        omega
      rw [countP_upTo hge] at hc
      exact ⟨c, by omega⟩
  · have hshort' : l.length ≤ n := hperm.length_eq ▸ hshort
    have hmul : ∀ m, n ≤ (m + 1) * n := fun m => Nat.le_mul_of_pos_left n (Nat.succ_pos m)
    refine iff_of_true (fun m hm => ?_) (fun m hm => ?_)
    all_goals have hle := hmul m
    all_goals omega

end

/-- The rows beyond a cursor that is itself beyond the one before. -/
lemma beyond_rows (hl : l = rows.filter fun r => cursor.all fun c => decide (c < id r))
    (hmem : last ∈ l) :
    beyond id last l = rows.filter fun r => (some (id last)).all fun c => decide (c < id r) := by
  rw [beyond, hl, List.filter_filter]
  refine List.filter_congr fun r _ => ?_
  rw [hl] at hmem
  have hafter := (List.mem_filter.mp hmem).2
  rcases cursor with _ | c
  · simp
  · have hc : c < id last := by simpa using hafter
    simpa using fun hlt => hc.trans hlt

/-- What a walk receives from a cursor on: all rows after it if the page borders are aligned, and
otherwise fewer. -/
lemma walk_aligned (hn : 1 ≤ n)
    (hask : ∀ k cursor, ∃ shown : List ρ, ask k cursor = some (shown.take n) ∧
      shown.Perm (rows.filter fun r => cursor.all fun c => decide (c < id r)) ∧
      shown.Pairwise fun a b => id a ≤ id b)
    (hl : l = rows.filter fun r => cursor.all fun c => decide (c < id r)) (hfuel : l.length < fuel) :
    ∃ pages, walk ask id fuel k cursor = some pages ∧
      (Aligned id n l → pages.flatten.Perm l) ∧ pages.flatten.length ≤ l.length ∧
      (¬ Aligned id n l → pages.flatten.length < l.length) := by
  induction fuel generalizing k cursor l with
  | zero => cases hfuel
  | succ fuel ih =>
    obtain ⟨shown, hanswer, hperm, hsorted⟩ := hask k cursor
    rw [← hl] at hperm
    rcases hlast : (shown.take n).getLast? with _ | last
    · have hpage := List.getLast?_eq_none_iff.mp hlast
      have hnone : shown = [] := (List.take_eq_nil_iff.mp hpage).resolve_left (by omega)
      have hempty : l = [] := by
        rw [hnone] at hperm
        exact hperm.nil_eq.symm
      rw [hpage] at hanswer
      refine ⟨[[]], walk_nil hanswer, fun _ => by rw [hempty]; rfl, by simp, fun h => absurd ?_ h⟩
      intro m hm
      rw [hempty] at hm
      cases hm
    · have hmem : last ∈ l := hperm.mem_iff.mp (List.mem_of_mem_take (List.mem_of_getLast? hlast))
      have hlength := length_beyond id last l
      have hcount := countP_page hsorted hlast
      rw [hperm.countP_eq] at hcount
      have hne : 0 < (shown.take n).length :=
        List.length_pos_iff.mpr fun hnil => by simp [hnil] at hlast
      have hshorter : (beyond id last l).length < fuel := by omega
      obtain ⟨pages, hpages, hall, hle, hless⟩ := ih (k := k + 1) (beyond_rows hl hmem) hshorter
      refine ⟨shown.take n :: pages, by rw [walk_page hanswer hlast, hpages]; rfl, ?_⟩
      rw [List.flatten_cons, List.length_append]
      rcases Nat.eq_zero_or_pos ((shown.drop n).countP fun r => decide (id r ≤ id last))
        with hrest | hrest
      · rw [← aligned_beyond_iff hsorted hlast hperm hrest]
        refine ⟨fun h => ?_, by omega, fun h => ?_⟩
        · exact ((hall h).append_left _).trans (page_append_beyond hsorted hlast hperm hrest)
        · have hfewer := hless h
          omega
      · have hnot := not_aligned hsorted hlast hperm hrest
        exact ⟨fun h => absurd h hnot, by omega, fun _ => by omega⟩

/-- If no two rows have the same id, every border falls between two ids. -/
lemma aligned_of_nodup (hn : 1 ≤ n) (h : (rows.map id).Nodup) : Aligned id n rows := by
  intro m hm
  have hpos : 0 < (m + 1) * n := Nat.mul_pos (Nat.succ_pos m) hn
  have hlength := length_orderBy id rows
  rcases hlast : ((orderBy id rows).take ((m + 1) * n)).getLast? with _ | last
  · have hnil := congrArg List.length (List.getLast?_eq_none_iff.mp hlast)
    rw [List.length_take, List.length_nil] at hnil
    omega
  · have hrest : ((orderBy id rows).drop ((m + 1) * n)).countP
        (fun r => decide (id r ≤ id last)) = 0 := by
      refine List.countP_eq_zero.mpr fun r hr => ?_
      have hstrict := orderBy_strict h
      rw [← List.take_append_drop ((m + 1) * n) (orderBy id rows)] at hstrict
      have hlt := (List.pairwise_append.mp hstrict).2.2 last (List.mem_of_getLast? hlast) r hr
      simpa using hlt
    have hcount := countP_page (orderBy_sorted id rows) hlast
    rw [hrest, (orderBy_perm id rows).countP_eq, List.length_take] at hcount
    exact ⟨id last, by omega⟩

/-- **When a walk is lossless**: exactly if no page border falls between two rows of one id. -/
theorem yields_rows_iff (hn : 1 ≤ n)
    (hask : ∀ k cursor, ∃ shown : List ρ, ask k cursor = some (shown.take n) ∧
      shown.Perm (rows.filter fun r => cursor.all fun c => decide (c < id r)) ∧
      shown.Pairwise fun a b => id a ≤ id b) :
    ∃ result, Yields ask id result ∧ (result.length = rows.length ↔ Aligned id n rows) ∧
      (result.Perm rows ↔ Aligned id n rows) := by
  have hrows : rows = rows.filter fun r => (none : Option ι).all fun c => decide (c < id r) := by simp
  obtain ⟨pages, hpages, hall, -, hless⟩ := walk_aligned (k := 0) hn hask hrows (Nat.lt_succ_self _)
  refine ⟨pages.flatten, ⟨pages, ⟨_, hpages⟩, rfl⟩, ?_⟩
  by_cases haligned : Aligned id n rows
  · exact ⟨iff_of_true (hall haligned).length_eq haligned, iff_of_true (hall haligned) haligned⟩
  · have hfewer := hless haligned
    refine ⟨iff_of_false (by omega) haligned, iff_of_false (fun hperm => ?_) haligned⟩
    exact hfewer.ne hperm.length_eq

/-! ### What a filter finds in the rows of a walk

A page that ends between two rows of one id may lose a row that a filter would have selected. It is
safe to filter what a walk yields if the rows to be selected share their ids with no others. -/

/-- No row with `P` shares its id with another. -/
def Alone (id : ρ → ι) (P : ρ → Bool) (l : List ρ) : Prop :=
  ∀ r ∈ l, P r = true → l.countP (fun r' => decide (id r' = id r)) ≤ 1

section
variable {P : ρ → Bool}

lemma Alone.perm (h : Alone id P l) (hperm : rows.Perm l) : Alone id P rows := by
  intro r hr hP
  rw [hperm.countP_eq]
  exact h r (hperm.mem_iff.mp hr) hP

lemma Alone.nodup (h : Alone id P l) : ((l.filter P).map id).Nodup := by
  refine List.nodup_iff_count_le_one.mpr fun c => ?_
  by_contra hmany
  obtain ⟨r, hr, rfl⟩ := List.mem_map.mp (List.count_pos_iff.mp (by omega : 0 < ((l.filter P).map id).count c))
  obtain ⟨hr, hP⟩ := List.mem_filter.mp hr
  refine hmany (le_trans ?_ (h r hr hP))
  rw [List.count, List.countP_map, List.countP_filter]
  refine List.countP_mono_left fun a _ ha => ?_
  simpa using (Bool.and_eq_true_iff.mp ha).1

/-- Beyond an id the rows of a larger one are all there. -/
lemma countP_beyond {c : ι} (h : id last < c) :
    (beyond id last l).countP (fun r => decide (id r = c)) = l.countP fun r => decide (id r = c) := by
  rw [beyond, List.countP_filter]
  refine List.countP_congr fun r _ => ?_
  simp only [Bool.and_eq_true, decide_eq_true_eq]
  exact and_iff_left_of_imp fun heq => heq ▸ h

lemma Alone.beyond (h : Alone id P l) : Alone id P (beyond id last l) := by
  intro r hr hP
  obtain ⟨hr, hlt⟩ := List.mem_filter.mp hr
  rw [countP_beyond (of_decide_eq_true hlt)]
  exact h r hr hP

/-- What a walk receives from a cursor on: every row that is to be selected and is alone. -/
lemma walk_alone (hn : 1 ≤ n)
    (hask : ∀ k cursor, ∃ shown : List ρ, ask k cursor = some (shown.take n) ∧
      shown.Perm (rows.filter fun r => cursor.all fun c => decide (c < id r)) ∧
      shown.Pairwise fun a b => id a ≤ id b)
    (hl : l = rows.filter fun r => cursor.all fun c => decide (c < id r)) (hfuel : l.length < fuel)
    (halone : Alone id P l) :
    ∃ pages, walk ask id fuel k cursor = some pages ∧ (pages.flatten.filter P).Perm (l.filter P) := by
  induction fuel generalizing k cursor l with
  | zero => cases hfuel
  | succ fuel ih =>
    obtain ⟨shown, hanswer, hperm, hsorted⟩ := hask k cursor
    rw [← hl] at hperm
    rcases hlast : (shown.take n).getLast? with _ | last
    · have hpage := List.getLast?_eq_none_iff.mp hlast
      have hnone : shown = [] := (List.take_eq_nil_iff.mp hpage).resolve_left (by omega)
      rw [hnone] at hperm
      rw [hpage] at hanswer
      refine ⟨[[]], walk_nil hanswer, ?_⟩
      obtain rfl := hperm.nil_eq
      exact .refl _
    · have htake := List.mem_of_getLast? hlast
      have hmem : last ∈ l := hperm.mem_iff.mp (List.mem_of_mem_take htake)
      have hlength := length_beyond id last l
      have hcount := countP_page hsorted hlast
      rw [hperm.countP_eq] at hcount
      have hne : 0 < (shown.take n).length :=
        List.length_pos_iff.mpr fun hnil => by simp [hnil] at hlast
      obtain ⟨pages, hpages, hrest⟩ := ih (k := k + 1) (beyond_rows hl hmem) (by omega) halone.beyond
      refine ⟨shown.take n :: pages, by rw [walk_page hanswer hlast, hpages]; rfl, ?_⟩
      -- What the page leaves of its last id is not to be selected.
      have hdrop : (shown.drop n).filter P = (beyond id last shown).filter P := by
        rw [beyond_shown hsorted hlast, Lib.beyond, List.filter_filter]
        refine List.filter_congr fun r hr => ?_
        rw [eq_comm, Bool.and_eq_left_iff_imp]
        intro hP
        rw [decide_eq_true_eq]
        have hsplit : shown = shown.take n ++ shown.drop n := (List.take_append_drop n shown).symm
        rw [hsplit] at hsorted
        refine lt_of_le_of_ne ((List.pairwise_append.mp hsorted).2.2 last htake r hr) fun heq => ?_
        have hone := halone.perm hperm r (List.mem_of_mem_drop hr) hP
        rw [hsplit, List.countP_append] at hone
        have hfirst : 0 < (shown.take n).countP fun r' => decide (id r' = id r) :=
          List.countP_pos_iff.mpr ⟨last, htake, decide_eq_true heq⟩
        have hsecond : 0 < (shown.drop n).countP fun r' => decide (id r' = id r) :=
          List.countP_pos_iff.mpr ⟨r, hr, decide_eq_true rfl⟩
        omega
      have hbeyond : ((beyond id last l).filter P).Perm ((shown.drop n).filter P) := by
        rw [hdrop]
        exact ((hperm.filter _).filter P).symm
      rw [List.flatten_cons, List.filter_append]
      refine ((hrest.trans hbeyond).append_left _).trans ?_
      rw [← List.filter_append, List.take_append_drop]
      exact hperm.filter P

/-- **A filter finds everything in the rows of a walk** if what it selects is alone. -/
theorem yields_alone (hn : 1 ≤ n)
    (hask : ∀ k cursor, ∃ shown : List ρ, ask k cursor = some (shown.take n) ∧
      shown.Perm (rows.filter fun r => cursor.all fun c => decide (c < id r)) ∧
      shown.Pairwise fun a b => id a ≤ id b) (halone : Alone id P rows) :
    ∃ result, Yields ask id result ∧ (result.filter P).Perm (rows.filter P) := by
  have hrows : rows = rows.filter fun r => (none : Option ι).all fun c => decide (c < id r) := by simp
  obtain ⟨pages, hpages, hperm⟩ := walk_alone (k := 0) hn hask hrows (Nat.lt_succ_self _) halone
  exact ⟨pages.flatten, ⟨pages, ⟨_, hpages⟩, rfl⟩, hperm⟩

/-- In pages of one, with the rows to be selected as the last of their ids, a walk receives all of
them only if they are alone. -/
lemma walk_ones
    (hask : ∀ k cursor, ∃ shown : List ρ, ask k cursor = some (shown.take 1) ∧
      shown.Perm (rows.filter fun r => cursor.all fun c => decide (c < id r)) ∧
      shown.Pairwise fun a b => toLex (id a, P a) ≤ toLex (id b, P b))
    (hl : l = rows.filter fun r => cursor.all fun c => decide (c < id r)) (hfuel : l.length < fuel) :
    ∃ pages, walk ask id fuel k cursor = some pages ∧ pages.flatten.countP P ≤ l.countP P ∧
      (l.countP P ≤ pages.flatten.countP P → Alone id P l) := by
  induction fuel generalizing k cursor l with
  | zero => cases hfuel
  | succ fuel ih =>
    obtain ⟨shown, hanswer, hperm, hsorted⟩ := hask k cursor
    rw [← hl] at hperm
    rcases shown with _ | ⟨last, rest⟩
    · refine ⟨[[]], walk_nil hanswer, by simp, fun _ r hr => ?_⟩
      rw [← hperm.mem_iff] at hr
      cases hr
    · have hmem : last ∈ l := hperm.mem_iff.mp List.mem_cons_self
      obtain ⟨hfirst, -⟩ := List.pairwise_cons.mp hsorted
      have hsplit (q : ρ → Bool) : l.countP q =
          (if q last then 1 else 0) + (rest.countP (fun r => q r && decide (id r ≤ id last)) +
            (beyond id last l).countP q) := by
        have hbeyond : beyond id last (last :: rest) = rest.filter fun r => decide (id last < id r) :=
          List.filter_cons_of_neg (by simp)
        have hbe : (beyond id last l).countP q = (beyond id last (last :: rest)).countP q :=
          ((hperm.filter _).countP_eq _).symm
        rw [← hperm.countP_eq, List.countP_cons, hbe, hbeyond, List.countP_filter,
          List.countP_eq_countP_filter_add rest q fun r => decide (id r ≤ id last),
          List.countP_filter, List.countP_filter, Nat.add_comm]
        simp only [← not_le, decide_not]
      have hshorter : (beyond id last l).length < fuel := by
        have hall := hsplit fun _ => true
        simp only [List.countP_true, if_true] at hall
        omega
      obtain ⟨pages, hpages, hle, halone⟩ := ih (k := k + 1) (beyond_rows hl hmem) hshorter
      refine ⟨[last] :: pages, by
        rw [walk_page hanswer List.getLast?_singleton, hpages]
        rfl, ?_⟩
      have hP := hsplit P
      rw [List.flatten_cons, List.countP_append, List.countP_singleton]
      refine ⟨by omega, fun hall => ?_⟩
      have hnone : rest.countP (fun r => P r && decide (id r ≤ id last)) = 0 := by omega
      have hafter := halone (by omega)
      intro r hr hPr
      rcases lt_or_ge (id last) (id r) with hlt | hge
      · rw [← countP_beyond hlt]
        exact hafter r (List.mem_filter.mpr ⟨hr, decide_eq_true hlt⟩) hPr
      · -- The row is the first of its id, so that no row without `P` comes after it.
        obtain rfl : r = last := by
          rcases List.mem_cons.mp (hperm.mem_iff.mpr hr) with heq | hin
          · exact heq
          · exact absurd (by simp [hPr, hge]) (List.countP_eq_zero.mp hnone r hin)
        have hrest : rest.countP (fun r' => decide (id r' = id r)) = 0 := by
          refine List.countP_eq_zero.mpr fun r' hr' heq => ?_
          have hid := of_decide_eq_true heq
          have hkeys := hfirst r' hr'
          rw [hid, hPr, Prod.Lex.toLex_le_toLex] at hkeys
          have hPr' : P r' = true := by
            rcases hkeys with hlt | ⟨-, hle⟩
            · exact absurd hlt (lt_irrefl _)
            · exact Bool.eq_true_of_true_le hle
          exact List.countP_eq_zero.mp hnone r' hr' (by simp [hPr', hid])
        rw [← hperm.countP_eq, List.countP_cons, hrest]
        split <;> omega

/-- **A filter finds everything in the rows of a walk in pages of one only if what it selects is
alone**, when the rows of an id come in the worst order. -/
theorem alone_of_yields
    (hask : ∀ k cursor, ∃ shown : List ρ, ask k cursor = some (shown.take 1) ∧
      shown.Perm (rows.filter fun r => cursor.all fun c => decide (c < id r)) ∧
      shown.Pairwise fun a b => toLex (id a, P a) ≤ toLex (id b, P b))
    {result : List ρ} (hresult : Yields ask id result)
    (hall : (rows.filter P).length ≤ (result.filter P).length) : Alone id P rows := by
  have hrows : rows = rows.filter fun r => (none : Option ι).all fun c => decide (c < id r) := by simp
  obtain ⟨pages, hpages, -, halone⟩ := walk_ones (k := 0) hask hrows (Nat.lt_succ_self _)
  rw [hresult.unique ⟨pages, ⟨_, hpages⟩, rfl⟩] at hall
  refine halone ?_
  rwa [List.countP_eq_length_filter, List.countP_eq_length_filter]

end

end Rebuilderd.Lib
