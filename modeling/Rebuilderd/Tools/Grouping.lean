import Rebuilderd.Tools.Schedule

/-!
What the groups of a report list.

A scheduler pushes the packages that it takes from an index one after the other. The first one of a
source package makes its group, with its own version and URL, and all of them are listed in it.
-/

namespace Rebuilderd.Tools

open Rebuilderd.Common

/-- A binary package as it is listed: under the name, version and URL of its source package, with its
own name and version. -/
structure Listed where
  source : String × String
  url : String
  artifact : String × String
  deriving DecidableEq

/-- The packages of a report list the binary package. -/
def Lists (packages : List SourcePackageReport) (x : Listed) : Prop :=
  ∃ g ∈ packages, (g.name, g.version) = x.source ∧ g.url = x.url ∧
    ∃ a ∈ g.artifacts, (a.name, a.version) = x.artifact

/-- A package that is pushed: its artifact, the key of its source package, and the group that it
makes if it is the first one of it. -/
structure Entry (κ : Type) where
  key : κ
  group : SourcePackageReport
  artifact : BinaryPackageReport

section
variable {κ : Type} [DecidableEq κ]

def grouped (es : List (Entry κ)) : Groups κ :=
  es.foldl (fun groups e => groups.push e.key e.group e.artifact) ∅

@[simp] lemma grouped_append (es : List (Entry κ)) (e : Entry κ) :
    grouped (es ++ [e]) = (grouped es).push e.key e.group e.artifact := by
  rw [grouped, List.foldl_append, List.foldl_cons, List.foldl_nil, ← grouped]

/-- The artifacts that are pushed, each under the first package of its source package. -/
def listing (es : List (Entry κ)) : Set Listed :=
  {x | ∃ e ∈ es, (e.artifact.name, e.artifact.version) = x.artifact ∧
    ∃ head, es.find? (fun e' => e'.key = e.key) = some head ∧
      (head.group.name, head.group.version) = x.source ∧ head.group.url = x.url}

lemma lookup_push (groups : Groups κ) (key key' : κ) (group : SourcePackageReport)
    (artifact : BinaryPackageReport) : (groups.push key group artifact).lookup key' =
      if key' = key then
        some (((groups.lookup key).map fun old =>
          { old with artifacts := old.artifacts ++ [artifact] }).getD { group with artifacts := [artifact] })
      else groups.lookup key' := by
  unfold Groups.push
  rcases hold : groups.lookup key with _ | old
  · by_cases h : key' = key
    · subst h
      rw [if_pos rfl]
      exact AList.lookup_insert groups
    · rw [if_neg h]
      exact AList.lookup_insert_ne h
  · have hmem : key ∈ groups := AList.lookup_isSome.mp (by rw [hold]; rfl)
    dsimp only
    rw [lookup_replace hmem]
    rfl

/-- The group of a source package: that of the first package, with the artifacts of all of them. -/
lemma lookup_grouped (es : List (Entry κ)) (key : κ) :
    (grouped es).lookup key = (es.find? fun e => e.key = key).map fun head =>
      { head.group with artifacts := (es.filter fun e => e.key = key).map (·.artifact) } := by
  induction es using List.reverseRecOn with
  | nil => rfl
  | append_singleton es e ih =>
    rw [grouped_append, lookup_push]
    by_cases h : key = e.key
    · subst h
      rw [if_pos rfl, ih, List.find?_append, List.filter_append]
      rcases hfind : es.find? (fun e' => decide (e'.key = e.key)) with _ | head
      · have hnone : es.filter (fun e' => decide (e'.key = e.key)) = [] :=
          List.filter_eq_nil_iff.mpr (List.find?_eq_none.mp hfind)
        simp [hfind, hnone]
      · simp [hfind]
    · rw [if_neg h, ih, List.find?_append, List.filter_append]
      simp [Ne.symm h]

lemma mem_intoValues {order : HashOrder} {groups : Groups κ} {g : SourcePackageReport} :
    g ∈ groups.intoValues order ↔ ∃ key, groups.lookup key = some g := by
  rw [Groups.intoValues, (order.perm _).mem_iff, List.mem_map]
  constructor
  · rintro ⟨e, he, rfl⟩
    exact ⟨e.1, AList.mem_lookup_iff.mpr he⟩
  · rintro ⟨key, hkey⟩
    exact ⟨⟨key, g⟩, AList.mem_lookup_iff.mp hkey, rfl⟩

/-- The groups list what was pushed. -/
lemma lists_grouped {order : HashOrder} {es : List (Entry κ)} {x : Listed} :
    Lists ((grouped es).intoValues order) x ↔ x ∈ listing es := by
  constructor
  · rintro ⟨g, hg, hsource, hurl, a, ha, hartifact⟩
    obtain ⟨key, hkey⟩ := mem_intoValues.mp hg
    rw [lookup_grouped] at hkey
    obtain ⟨head, hhead, rfl⟩ := Option.map_eq_some_iff.mp hkey
    obtain ⟨e, he, rfl⟩ := List.mem_map.mp ha
    obtain ⟨hmem, hsame⟩ := List.mem_filter.mp he
    obtain rfl : e.key = key := by simpa using hsame
    exact ⟨e, hmem, hartifact, head, hhead, hsource, hurl⟩
  · rintro ⟨e, he, hartifact, head, hhead, hsource, hurl⟩
    refine ⟨{ head.group with artifacts := (es.filter fun e' => e'.key = e.key).map (·.artifact) },
      mem_intoValues.mpr ⟨e.key, ?_⟩, hsource, hurl, e.artifact, ?_, hartifact⟩
    · rw [lookup_grouped, hhead]
      rfl
    · exact List.mem_map.mpr ⟨e, List.mem_filter.mpr ⟨he, by simp⟩, rfl⟩

end

end Rebuilderd.Tools
