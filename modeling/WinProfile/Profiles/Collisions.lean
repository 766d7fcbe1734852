/-
  File:      WinProfile/Profiles/Collisions.lean
  Subject:   The collision pass marks exactly the profiles that share a directory with another.

  * `Grouped` -- the groups of `indexes_by_path`: one for every path, with the numbers of its
    profiles.
  * `Collides` -- some other profile has the same directory.
  * `getElem?_markPathCollisions` -- what every profile is after the pass, in whatever order the
    groups come; `collisions_marked_exactly` says what that means for the marks and the report.
-/
import WinProfile.Profiles.Scanner

namespace WinProfile

/-! ## 1. Lists changed at several places -/

section Lists

variable {α : Type} (f : α → α)

/-- Every place is changed once. -/
theorem getElem?_foldl_modify : ∀ (places : List Nat) (l : List α) (i : Nat), places.Nodup →
    (places.foldl (fun l place => l.modify place f) l)[i]?
      = if i ∈ places then l[i]?.map f else l[i]?
  | [], l, i, _ => by simp
  | place :: places, l, i, h => by
    obtain ⟨hnew, hrest⟩ := List.nodup_cons.mp h
    rw [List.foldl_cons, getElem?_foldl_modify places _ i hrest, List.getElem?_modify]
    by_cases hplace : place = i
    · subst hplace
      rw [if_neg hnew, if_pos (List.mem_cons_self ..)]
      simp only [if_true, Option.map_eq_map]
    · simp only [List.mem_cons, Ne.symm hplace, false_or, if_neg hplace, id_map']

theorem length_foldl_modify : ∀ (places : List Nat) (l : List α),
    (places.foldl (fun l place => l.modify place f) l).length = l.length
  | [], l => rfl
  | place :: places, l => by rw [List.foldl_cons, length_foldl_modify places, List.length_modify]

/-- A list without repetition has a second element when it is longer than one. -/
theorem one_lt_length_iff {l : List Nat} {i : Nat} (h : l.Nodup) (hi : i ∈ l) :
    1 < l.length ↔ ∃ k, k ≠ i ∧ k ∈ l := by
  have hlen := List.length_erase_of_mem hi
  constructor
  · intro hlong
    obtain ⟨k, hk⟩ := List.exists_mem_of_length_pos (l := l.erase i) (by omega)
    exact ⟨k, h.mem_erase_iff.mp hk⟩
  · rintro ⟨k, hk⟩
    have := List.length_pos_of_mem (h.mem_erase_iff.mpr hk)
    omega

theorem foldl_groups (step : List α → Nat → List α) (groups : List (List Nat)) (l : List α) :
    groups.foldl (fun l places => places.foldl step l) l = groups.flatten.foldl step l := by
  induction groups generalizing l with
  | nil => rfl
  | cons places groups ih => rw [List.foldl_cons, ih, List.flatten_cons, List.foldl_append]

end Lists

/-! ## 2. The groups -/

/-- Profile number `i` ends in the directory `key`. -/
def HasPath (ps : List UserProfile) (i : Nat) (key : String) : Prop :=
  ∃ p, ps[i]? = some p ∧ isBlank p.profilePath = false ∧ collisionPath p.profilePath = key

/-- One group for every path, with the numbers of its profiles. -/
structure Grouped (ps : List UserProfile) (g : List (String × List Nat)) : Prop where
  keys : (g.map Prod.fst).Nodup
  groups : ∀ key indexes, (key, indexes) ∈ g →
    indexes.Nodup ∧ ∀ i, i ∈ indexes ↔ HasPath ps i key
  all : ∀ i key, HasPath ps i key → ∃ indexes, (key, indexes) ∈ g

section Groups

variable {ps : List UserProfile} {g : List (String × List Nat)} {p : UserProfile}

theorem keys_pushIndex (key : String) (index : Nat) : ∀ g : List (String × List Nat),
    (pushIndex key index g).map Prod.fst
      = if key ∈ g.map Prod.fst then g.map Prod.fst else g.map Prod.fst ++ [key]
  | [] => rfl
  | (k, indexes) :: rest => by
    rw [pushIndex]
    by_cases hk : k = key
    · rw [if_pos hk, List.map_cons, List.map_cons, if_pos (by simp [hk])]
    · rw [if_neg hk, List.map_cons, keys_pushIndex key index rest, List.map_cons]
      by_cases hin : key ∈ rest.map Prod.fst
      · rw [if_pos hin, if_pos (List.mem_cons_of_mem _ hin)]
      · rw [if_neg hin, if_neg (by simp [Ne.symm hk] at hin ⊢; exact hin)]
        rfl

/-- Where a group after the push comes from. -/
theorem mem_pushIndex {key k : String} {index : Nat} {indexes : List Nat} :
    ∀ {g : List (String × List Nat)}, (g.map Prod.fst).Nodup →
    (k, indexes) ∈ pushIndex key index g →
    (k ≠ key ∧ (k, indexes) ∈ g) ∨ (k = key ∧
      ((key ∉ g.map Prod.fst ∧ indexes = [index]) ∨
        ∃ before, (key, before) ∈ g ∧ indexes = before ++ [index]))
  | [], _, h => by
    simp only [pushIndex, List.mem_singleton, Prod.mk.injEq] at h
    exact .inr ⟨h.1, .inl ⟨by simp, h.2⟩⟩
  | (k', before) :: rest, hkeys, h => by
    obtain ⟨hnew, hrest⟩ := List.nodup_cons.mp hkeys
    rw [pushIndex] at h
    by_cases hk : k' = key
    · rw [if_pos hk, List.mem_cons, Prod.mk.injEq] at h
      subst hk
      rcases h with ⟨rfl, rfl⟩ | h
      · exact .inr ⟨rfl, .inr ⟨before, List.mem_cons_self .., rfl⟩⟩
      · exact .inl ⟨fun e => hnew (List.mem_map.mpr ⟨_, h, e⟩), List.mem_cons_of_mem _ h⟩
    · rw [if_neg hk, List.mem_cons, Prod.mk.injEq] at h
      rcases h with ⟨rfl, rfl⟩ | h
      · exact .inl ⟨hk, List.mem_cons_self ..⟩
      · rcases mem_pushIndex hrest h with ⟨hne, hin⟩ | ⟨rfl, hcase⟩
        · exact .inl ⟨hne, List.mem_cons_of_mem _ hin⟩
        · refine .inr ⟨rfl, hcase.imp (fun hfresh => ⟨?_, hfresh.2⟩) fun hold => ?_⟩
          · simpa [Ne.symm hk] using hfresh.1
          · obtain ⟨b, hb, rfl⟩ := hold
            exact ⟨b, List.mem_cons_of_mem _ hb, rfl⟩

theorem hasPath_concat {i : Nat} {key : String} : HasPath (ps ++ [p]) i key ↔
    HasPath ps i key ∨ i = ps.length ∧ isBlank p.profilePath = false ∧
      collisionPath p.profilePath = key := by
  unfold HasPath
  rcases Nat.lt_trichotomy i ps.length with hlt | rfl | hgt
  · rw [List.getElem?_append_left hlt]
    exact ⟨.inl, fun h => h.resolve_right fun h => absurd h.1 (by omega)⟩
  · rw [List.getElem?_concat_length]
    have hnone : ps[ps.length]? = none := List.getElem?_eq_none (le_refl _)
    rw [hnone]
    constructor
    · rintro ⟨q, hq, hrest⟩
      cases hq
      exact .inr ⟨rfl, hrest⟩
    · rintro (⟨q, hq, _⟩ | ⟨_, hrest⟩)
      · cases hq
      · exact ⟨p, rfl, hrest⟩
  · have hnone : ps[i]? = none := List.getElem?_eq_none (by omega)
    have hnone' : (ps ++ [p])[i]? = none := List.getElem?_eq_none (by simp; omega)
    rw [hnone, hnone']
    constructor
    · rintro ⟨q, hq, _⟩
      cases hq
    · rintro (⟨q, hq, _⟩ | ⟨hi, _⟩)
      · cases hq
      · omega

theorem HasPath.lt {i : Nat} {key : String} (h : HasPath ps i key) : i < ps.length := by
  obtain ⟨q, hq, _⟩ := h
  exact (List.getElem?_eq_some_iff.mp hq).1

/-- A profile with a blank path changes no group. -/
theorem Grouped.skip (h : Grouped ps g) (hblank : isBlank p.profilePath = true) :
    Grouped (ps ++ [p]) g := by
  have hsame : ∀ i key, HasPath (ps ++ [p]) i key ↔ HasPath ps i key := fun i key => by
    rw [hasPath_concat, hblank]
    simp
  refine ⟨h.keys, fun key indexes hin => ?_, fun i key hi => h.all i key ((hsame i key).mp hi)⟩
  exact ⟨(h.groups key indexes hin).1,
    fun i => ((h.groups key indexes hin).2 i).trans (hsame i key).symm⟩

/-- Any other joins the group of its path. -/
theorem Grouped.push (h : Grouped ps g) (hpath : isBlank p.profilePath = false) :
    Grouped (ps ++ [p]) (pushIndex (collisionPath p.profilePath) ps.length g) := by
  refine ⟨?_, fun key indexes hin => ?_, fun i key hi => ?_⟩
  · rw [keys_pushIndex]
    split
    · exact h.keys
    · next hnew =>
      refine List.nodup_append.mpr ⟨h.keys, List.nodup_singleton _, fun a ha b hb e => hnew ?_⟩
      rw [← List.mem_singleton.mp hb, ← e]
      exact ha
  · rcases mem_pushIndex h.keys hin with ⟨hne, hold⟩ | ⟨rfl, ⟨hnew, rfl⟩ | ⟨before, hold, rfl⟩⟩
    · refine ⟨(h.groups key indexes hold).1, fun i => ((h.groups key indexes hold).2 i).trans ?_⟩
      rw [hasPath_concat]
      exact ⟨.inl, fun h => h.resolve_right fun h => hne h.2.2.symm⟩
    · refine ⟨List.nodup_singleton _, fun i => ?_⟩
      rw [hasPath_concat, List.mem_singleton]
      constructor
      · exact fun hi => .inr ⟨hi, hpath, rfl⟩
      · rintro (hi | hi)
        · obtain ⟨indexes, hg⟩ := h.all i _ hi
          exact absurd (List.mem_map.mpr ⟨_, hg, rfl⟩) hnew
        · exact hi.1
    · obtain ⟨hnodup, hmem⟩ := h.groups _ before hold
      refine ⟨?_, fun i => ?_⟩
      · refine List.nodup_append.mpr ⟨hnodup, List.nodup_singleton _, fun a ha b hb => ?_⟩
        have hlt := ((hmem a).mp ha).lt
        have hlast := List.mem_singleton.mp hb
        omega
      · rw [hasPath_concat, List.mem_append, List.mem_singleton, hmem i]
        exact or_congr_right ⟨fun hi => ⟨hi, hpath, rfl⟩, fun hi => hi.1⟩
  · have hkeys := keys_pushIndex (collisionPath p.profilePath) ps.length g
    have hin : key ∈ (pushIndex (collisionPath p.profilePath) ps.length g).map Prod.fst := by
      rw [hkeys]
      rcases hasPath_concat.mp hi with hi | ⟨_, _, rfl⟩
      · obtain ⟨indexes, hg⟩ := h.all i key hi
        have hkey : key ∈ g.map Prod.fst := List.mem_map.mpr ⟨_, hg, rfl⟩
        split
        · exact hkey
        · exact List.mem_append_left _ hkey
      · split
        · next hkey => exact hkey
        · exact List.mem_append_right _ (List.mem_singleton_self _)
    obtain ⟨⟨_, indexes⟩, hg, rfl⟩ := List.mem_map.mp hin
    exact ⟨indexes, hg⟩

theorem Grouped.rest : ∀ (rest : List UserProfile) {ps : List UserProfile}
    {g : List (String × List Nat)}, Grouped ps g →
    Grouped (ps ++ rest) (indexesByPath g ps.length rest)
  | [], ps, g, h => by rwa [List.append_nil]
  | p :: rest, ps, g, h => by
    have hlen : ps.length + 1 = (ps ++ [p]).length := by simp
    rw [indexesByPath, List.append_cons, hlen]
    cases hblank : isBlank p.profilePath with
    | true =>
      rw [if_pos rfl]
      exact Grouped.rest rest (h.skip hblank)
    | false =>
      rw [if_neg (by simp)]
      exact Grouped.rest rest (h.push hblank)

theorem grouped_indexesByPath (ps : List UserProfile) : Grouped ps (indexesByPath [] 0 ps) := by
  have hnil : Grouped [] [] := by
    refine ⟨List.nodup_nil, fun _ _ h => (nomatch h), fun i key h => ?_⟩
    exact absurd h.lt (by simp)
  exact Grouped.rest ps hnil

end Groups

/-! ## 3. The pass -/

/-- Profile number `i` ends in the same directory as another one. -/
def Collides (ps : List UserProfile) (i : Nat) : Prop :=
  ∃ key, HasPath ps i key ∧ ∃ k, k ≠ i ∧ HasPath ps k key

section Pass

variable {ps : List UserProfile} {yields : List (List Nat) → List (List Nat)}

theorem HasPath.key_eq {i : Nat} {key key' : String} (h : HasPath ps i key)
    (h' : HasPath ps i key') : key = key' := by
  obtain ⟨p, hp, _, rfl⟩ := h
  obtain ⟨q, hq, _, rfl⟩ := h'
  rw [hp] at hq
  cases hq
  rfl

/-- The numbers that the pass visits. -/
def visited (ps : List UserProfile) : List Nat :=
  (((indexesByPath [] 0 ps).map Prod.snd).filter fun indexes => indexes.length > 1).flatten

theorem mem_visited {i : Nat} : i ∈ visited ps ↔ Collides ps i := by
  have hg := grouped_indexesByPath ps
  simp only [visited, List.mem_flatten, List.mem_filter, List.mem_map, Prod.exists,
    decide_eq_true_eq]
  constructor
  · rintro ⟨indexes, ⟨⟨key, _, hin, rfl⟩, hlen⟩, hi⟩
    obtain ⟨hnodup, hmem⟩ := hg.groups key _ hin
    refine ⟨key, (hmem i).mp hi, ?_⟩
    obtain ⟨k, hne, hk⟩ := (one_lt_length_iff hnodup hi).mp hlen
    exact ⟨k, hne, (hmem k).mp hk⟩
  · rintro ⟨key, hi, k, hne, hk⟩
    obtain ⟨indexes, hin⟩ := hg.all i key hi
    obtain ⟨hnodup, hmem⟩ := hg.groups key indexes hin
    refine ⟨indexes, ⟨⟨key, _, hin, rfl⟩, ?_⟩, (hmem i).mpr hi⟩
    exact (one_lt_length_iff hnodup ((hmem i).mpr hi)).mpr
      ⟨k, hne, (hmem k).mpr hk⟩

theorem nodup_visited (ps : List UserProfile) : (visited ps).Nodup := by
  have hg := grouped_indexesByPath ps
  refine List.nodup_flatten.mpr ⟨fun indexes hin => ?_, List.Pairwise.filter _ ?_⟩
  · obtain ⟨⟨key, _⟩, hgroup, rfl⟩ := List.mem_map.mp (List.mem_of_mem_filter hin)
    exact (hg.groups key _ hgroup).1
  · refine List.pairwise_map.mpr ((List.pairwise_map.mp hg.keys).imp_of_mem
      fun {a b} ha hb hne i hi hi' => hne ?_)
    exact (((hg.groups a.1 a.2 ha).2 i).mp hi).key_eq (((hg.groups b.1 b.2 hb).2 i).mp hi')

/-- **Every profile after the pass**, in whatever order the groups came. -/
theorem getElem?_markPathCollisions (ps : List UserProfile) (hyields : ∀ l, (yields l).Perm l) (i : Nat) :
    (Collides ps i → (markPathCollisions yields ps)[i]? = ps[i]?.map UserProfile.collide) ∧
    (¬ Collides ps i → (markPathCollisions yields ps)[i]? = ps[i]?) := by
  have hperm := ((hyields ((indexesByPath [] 0 ps).map Prod.snd)).filter
    fun indexes => indexes.length > 1).flatten
  have hmem := fun i => hperm.mem_iff (a := i)
  have hnodup := hperm.nodup_iff.mpr (nodup_visited ps)
  unfold markPathCollisions
  rw [foldl_groups, getElem?_foldl_modify _ _ _ _ hnodup]
  constructor
  · exact fun h => if_pos ((hmem i).mpr (mem_visited.mpr h))
  · exact fun h => if_neg fun hin => h (mem_visited.mp ((hmem i).mp hin))

end Pass

/-! ## 4. Exactly the colliding profiles are marked -/

/-- A `PathCollision`. -/
def ProfileAnomaly.isCollision : ProfileAnomaly → Bool
  | .pathCollision _ => true
  | _ => false

/-- The path of profile `i` is not blank, and neither is an equal one of another profile. -/
def SharesPath (ps : List UserProfile) (i : Nat) : Prop :=
  ∃ p j q, ps[i]? = some p ∧ isBlank p.profilePath = false ∧ j ≠ i ∧ ps[j]? = some q ∧
    isBlank q.profilePath = false ∧ collisionPath q.profilePath = collisionPath p.profilePath

/-- A profile before and after the pass: it carries a collision with its own path, or none, and
nothing else of it has changed but the health, which is computed again. -/
structure Marked (shares : Prop) (p q : UserProfile) : Prop where
  collisions : shares → q.anomalies.filter ProfileAnomaly.isCollision = [.pathCollision p.profilePath]
  none : ¬ shares → q.anomalies.filter ProfileAnomaly.isCollision = []
  others : q.anomalies.filter (fun a => !a.isCollision) = p.anomalies
  health : q.computeHealth = q
  fields : { q with anomalies := p.anomalies, health := p.health } = p

theorem sharesPath_iff {ps : List UserProfile} {i : Nat} : SharesPath ps i ↔ Collides ps i := by
  constructor
  · intro ⟨p, j, q, hp, hpath, hne, hq, hpath', hsame⟩
    exact ⟨_, ⟨p, hp, hpath, rfl⟩, j, hne, ⟨q, hq, hpath', hsame⟩⟩
  · intro ⟨key, ⟨p, hp, hpath, hkey⟩, j, hne, ⟨q, hq, hpath', hkey'⟩⟩
    exact ⟨p, j, q, hp, hpath, hne, hq, hpath', hkey'.trans hkey.symm⟩

section Marks

variable {p : UserProfile} (hnone : ∀ a ∈ p.anomalies, a.isCollision = false)
include hnone

theorem filter_collisions : p.anomalies.filter ProfileAnomaly.isCollision = [] :=
  List.filter_eq_nil_iff.mpr fun a ha => by simp [hnone a ha]

theorem filter_others : p.anomalies.filter (fun a => !a.isCollision) = p.anomalies :=
  List.filter_eq_self.mpr fun a ha => by simp [hnone a ha]

theorem marked_collide {shares : Prop} (h : shares) : Marked shares p p.collide where
  collisions _ := by
    show (p.anomalies ++ [ProfileAnomaly.pathCollision p.profilePath]).filter _ = _
    rw [List.filter_append, filter_collisions hnone]
    rfl
  none hnot := absurd h hnot
  others := by
    show (p.anomalies ++ [ProfileAnomaly.pathCollision p.profilePath]).filter _ = _
    rw [List.filter_append, filter_others hnone]
    simp [ProfileAnomaly.isCollision]
  health := rfl
  fields := rfl

theorem marked_same {shares : Prop} (h : ¬ shares) (hhealth : p.computeHealth = p) :
    Marked shares p p where
  collisions hs := absurd hs h
  none _ := filter_collisions hnone
  others := filter_others hnone
  health := hhealth
  fields := rfl

end Marks

/-- **Path collisions are marked exactly**, in whatever order the hash map yields its groups: of
every list of profiles without such a mark and with their health computed, exactly those are marked
whose path another one has, nothing else changes, and the counts of the report add up. -/
theorem collisions_marked_exactly (yields : List (List Nat) → List (List Nat))
    (hyields : ∀ l, (yields l).Perm l) (ps : List UserProfile)
    (hnone : ∀ p ∈ ps, ∀ a ∈ p.anomalies, a.isCollision = false)
    (hhealth : ∀ p ∈ ps, p.computeHealth = p) (now : Int) :
    (markPathCollisions yields ps).length = ps.length ∧
    (∀ i p, ps[i]? = some p →
      ∃ q, (markPathCollisions yields ps)[i]? = some q ∧ Marked (SharesPath ps i) p q) ∧
    (buildDiagnosticReport now (markPathCollisions yields ps)).hasConsistentHealthCounts = true := by
  have hat := fun i => getElem?_markPathCollisions ps hyields i
  refine ⟨?_, fun i p hp => ?_, hasConsistentHealthCounts_build now _⟩
  · unfold markPathCollisions
    rw [foldl_groups, length_foldl_modify]
  · have hmem : p ∈ ps := List.mem_of_getElem? hp
    by_cases hc : Collides ps i
    · refine ⟨p.collide, ?_, marked_collide (hnone p hmem) (sharesPath_iff.mpr hc)⟩
      rw [(hat i).1 hc, hp]
      rfl
    · refine ⟨p, ?_, marked_same (hnone p hmem) (fun h => hc (sharesPath_iff.mp h))
        (hhealth p hmem)⟩
      rw [(hat i).2 hc, hp]

/-- A healthy profile in a directory. -/
def profileAt (path : String) : UserProfile where
  sid := ""
  canonicalSid := ""
  username := ""
  domain := ""
  profilePath := path
  loaded := false
  isBak := false
  stateMask := 0
  refCount := 0
  guid := none
  ntuserExists := true
  usrclassExists := true
  diskSizeBytes := 0
  anomalies := []
  health := .healthy

/-- Two spellings of one directory and another directory, the groups in reverse order. -/
theorem collisions_marked_exactly_sample :
    SharesPath [profileAt "C:\\Users\\A", profileAt "C:\\Users\\B", profileAt "c:\\users\\a\\"] 2 ∧
    ∃ q, (markPathCollisions List.reverse
        [profileAt "C:\\Users\\A", profileAt "C:\\Users\\B", profileAt "c:\\users\\a\\"])[2]? = some q ∧
      q.anomalies.filter ProfileAnomaly.isCollision = [.pathCollision "c:\\users\\a\\"] := by
  have hshares : SharesPath
      [profileAt "C:\\Users\\A", profileAt "C:\\Users\\B", profileAt "c:\\users\\a\\"] 2 :=
    ⟨profileAt "c:\\users\\a\\", 0, profileAt "C:\\Users\\A", rfl, by decide +kernel, by decide, rfl,
      by decide +kernel, by decide +kernel⟩
  refine ⟨hshares, ?_⟩
  have hmain := collisions_marked_exactly List.reverse List.reverse_perm
    [profileAt "C:\\Users\\A", profileAt "C:\\Users\\B", profileAt "c:\\users\\a\\"]
    (by simp [profileAt]) (by decide) 0
  obtain ⟨q, hq, hmarked⟩ := hmain.2.1 2 _ rfl
  exact ⟨q, hq, hmarked.collisions hshares⟩

end WinProfile
