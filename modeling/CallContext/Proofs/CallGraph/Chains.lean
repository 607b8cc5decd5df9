import CallContext.Proofs.CallGraph.Traversal

/-!
Call chains show shortest ways. A way between a seed and a wanted method follows calls, repeats no method
and is as short as its ends allow, and the search from a seed finds one way to each wanted method within
its limit. Two searches give ways with the same ends only if they start from these ends.
-/

namespace CallContext

open Collection Search

section

variable {α : Type}

def Joins (first last : α) (way : List α) : Prop :=
  way.head? = some first ∧ way.getLast? = some last

theorem Joins.unique {first last first' last' : α} {way : List α} (one : Joins first last way)
    (other : Joins first' last' way) : first = first' ∧ last = last' :=
  ⟨Option.some.inj (one.1.symm.trans other.1), Option.some.inj (one.2.symm.trans other.2)⟩

theorem Joins.reverse {first last : α} {way : List α} (joined : Joins first last way) :
    Joins last first way.reverse :=
  ⟨List.head?_reverse.trans joined.2, List.getLast?_reverse.trans joined.1⟩

structure ShortestWay (next : α → α → Prop) (first last : α) (way : List α) : Prop where
  joins : Joins first last way
  chain : way.IsChain next
  nodup : way.Nodup
  distance : IsDistance next [first] (way.length - 1) last

theorem ShortestWay.reverse {next : α → α → Prop} {first last : α} {way : List α}
    (shortest : ShortestWay (fun a b => next b a) first last way) :
    ShortestWay next last first way.reverse where
  joins := shortest.joins.reverse
  chain := List.isChain_reverse.mpr shortest.chain
  nodup := List.nodup_reverse.mpr shortest.nodup
  distance := by
    rw [List.length_reverse]
    exact isDistance_reverse_iff.mp shortest.distance

variable [DecidableEq α]

def IsFound (neighbours : α → List α) (limit : Nat) (seed place : α) (way : List α) : Prop :=
  ∃ trail ∈ trails neighbours limit [seed], trail.last = place ∧ trail.places = way

variable {neighbours : α → List α} {limit : Nat} {seed place : α} {way : List α}

theorem IsFound.shortest (found : IsFound neighbours limit seed place way) :
    ShortestWay (Adjacent neighbours) seed place way := by
  obtain ⟨trail, found, rfl, rfl⟩ := found
  have started : trail.start = seed := List.mem_singleton.mp (start_of_mem_trails found)
  refine ⟨⟨?_, trail.getLast?_places⟩, isChain_places found, nodup_places found, ?_⟩
  · rw [trail.head?_places, started]
  · rw [trail.length_places]
    exact (trails_explored neighbours limit [seed]).distance trail found

theorem IsFound.length_le (found : IsFound neighbours limit seed place way) :
    way.length ≤ limit + 1 := by
  obtain ⟨trail, found, -, rfl⟩ := found
  rw [trail.length_places]
  exact Nat.succ_le_succ (length_le_limit found)

theorem IsFound.unique {other : List α} (one : IsFound neighbours limit seed place way)
    (another : IsFound neighbours limit seed place other) : way = other := by
  obtain ⟨trail, found, rfl, rfl⟩ := one
  obtain ⟨trail', found', same, rfl⟩ := another
  rw [eq_of_last_eq found found' same.symm]

theorem exists_isFound (apart : place ≠ seed)
    (within : Within (Adjacent neighbours) [seed] limit place) :
    ∃ way, IsFound neighbours limit seed place way := by
  have reached := (trails_explored neighbours limit [seed]).mem_iff place
  rw [Nat.zero_add, List.mem_singleton] at reached
  obtain ⟨trail, found, last⟩ := List.mem_map.mp (reached.mpr ⟨apart, within⟩)
  exact ⟨trail.places, trail, found, last, rfl⟩

end

namespace CallGraph

variable {graph : CallGraph} {seeds wanted : List MethodId} {up down : Nat}

theorem shortest_of_callees {seed id : MethodId} {way : List MethodId}
    (found : IsFound graph.callees down seed id way) : ShortestWay graph.Calls seed id way := by
  rw [← adjacent_callees]
  exact found.shortest

theorem shortest_of_callers {seed id : MethodId} {way : List MethodId}
    (found : IsFound graph.callers up seed id way) :
    ShortestWay graph.Calls id seed way.reverse := by
  have shortest := found.shortest
  rw [adjacent_callers] at shortest
  exact shortest.reverse

theorem mem_filter_trails {neighbours : MethodId → List MethodId} {limit : Nat} {seed : MethodId}
    {way : List MethodId} :
    way ∈ ((trails neighbours limit [seed]).filter (wanted.contains ·.last)).map (·.places) ↔
      ∃ id ∈ wanted, IsFound neighbours limit seed id way := by
  simp only [List.mem_map, List.mem_filter, List.contains_iff_mem, IsFound]
  constructor
  · rintro ⟨trail, ⟨found, member⟩, shown⟩
    exact ⟨trail.last, member, trail, found, rfl, shown⟩
  · rintro ⟨_, member, trail, found, rfl, shown⟩
    exact ⟨trail, ⟨found, member⟩, shown⟩

theorem mem_waysOf {seed : MethodId} {way : List MethodId} :
    way ∈ graph.waysOf wanted up down seed ↔
      (∃ id ∈ wanted, IsFound graph.callees down seed id way) ∨
        ∃ id ∈ wanted, IsFound graph.callers up seed id way.reverse := by
  rw [waysOf_eq_map_trails, List.mem_append, List.mem_map_of_involutive List.reverse_involutive]
  exact or_congr mem_filter_trails mem_filter_trails

theorem mem_ways_iff {first last : MethodId} {way : List MethodId} (joined : Joins first last way) :
    way ∈ seeds.flatMap (graph.waysOf wanted up down) ↔
      (first ∈ seeds ∧ last ∈ wanted ∧ IsFound graph.callees down first last way) ∨
        (last ∈ seeds ∧ first ∈ wanted ∧ IsFound graph.callers up last first way.reverse) := by
  simp only [List.mem_flatMap, mem_waysOf]
  constructor
  · rintro ⟨seed, given, ⟨id, member, found⟩ | ⟨id, member, found⟩⟩
    · obtain ⟨rfl, rfl⟩ := joined.unique (shortest_of_callees found).joins
      exact .inl ⟨given, member, found⟩
    · obtain ⟨rfl, rfl⟩ := joined.reverse.unique found.shortest.joins
      exact .inr ⟨given, member, found⟩
  · rintro (⟨given, member, found⟩ | ⟨given, member, found⟩)
    · exact ⟨first, given, .inl ⟨last, member, found⟩⟩
    · exact ⟨last, given, .inr ⟨first, member, found⟩⟩

def JoinedOnce (ways : List (List MethodId)) (first last : MethodId) : Prop :=
  ∃! way, way ∈ ways ∧ Joins first last way

theorem joinedOnce_below {seed id : MethodId} (given : seed ∈ seeds) (member : id ∈ wanted)
    (apart : id ≠ seed) (oneWay : id ∉ seeds ∨ seed ∉ wanted)
    (within : Within graph.Calls [seed] down id) :
    JoinedOnce (seeds.flatMap (graph.waysOf wanted up down)) seed id := by
  rw [← adjacent_callees] at within
  obtain ⟨way, found⟩ := exists_isFound apart within
  have joined := found.shortest.joins
  refine ⟨way, ⟨(mem_ways_iff joined).mpr (.inl ⟨given, member, found⟩), joined⟩, ?_⟩
  rintro other ⟨shown, joined'⟩
  rcases (mem_ways_iff joined').mp shown with ⟨-, -, found'⟩ | ⟨given', member', -⟩
  · exact found'.unique found
  · exact (oneWay.elim (fun new => new given') fun new => new member').elim

theorem joinedOnce_above {seed id : MethodId} (given : seed ∈ seeds) (member : id ∈ wanted)
    (apart : id ≠ seed) (oneWay : id ∉ seeds ∨ seed ∉ wanted)
    (within : Within graph.CalledBy [seed] up id) :
    JoinedOnce (seeds.flatMap (graph.waysOf wanted up down)) id seed := by
  rw [← adjacent_callers] at within
  obtain ⟨way, found⟩ := exists_isFound apart within
  have joined := found.shortest.joins.reverse
  have upward : IsFound graph.callers up seed id way.reverse.reverse := by
    rwa [List.reverse_reverse]
  refine ⟨way.reverse, ⟨(mem_ways_iff joined).mpr (.inr ⟨given, member, upward⟩), joined⟩, ?_⟩
  rintro other ⟨shown, joined'⟩
  rcases (mem_ways_iff joined').mp shown with ⟨given', member', -⟩ | ⟨-, -, found'⟩
  · exact (oneWay.elim (fun new => new given') fun new => new member').elim
  · rw [found.unique found', List.reverse_reverse]

theorem joinedOnce_waysOf_below {seed id : MethodId} (member : id ∈ wanted) (apart : id ≠ seed)
    (within : Within graph.Calls [seed] down id) :
    JoinedOnce (graph.waysOf wanted up down seed) seed id := by
  have alone : JoinedOnce ([seed].flatMap (graph.waysOf wanted up down)) seed id :=
    joinedOnce_below List.mem_cons_self member apart (.inl (List.mem_singleton.not.mpr apart)) within
  rwa [List.flatMap_singleton] at alone

theorem joinedOnce_waysOf_above {seed id : MethodId} (member : id ∈ wanted) (apart : id ≠ seed)
    (within : Within graph.CalledBy [seed] up id) :
    JoinedOnce (graph.waysOf wanted up down seed) id seed := by
  have alone : JoinedOnce ([seed].flatMap (graph.waysOf wanted up down)) id seed :=
    joinedOnce_above List.mem_cons_self member apart (.inl (List.mem_singleton.not.mpr apart)) within
  rwa [List.flatMap_singleton] at alone

theorem exists_seed_of_mem_related {id : MethodId} (member : id ∈ graph.related seeds up down) :
    ∃ seed ∈ seeds, id ≠ seed ∧
      (Within graph.Calls [seed] down id ∨ Within graph.CalledBy [seed] up id) := by
  rw [related_eq_eraseDups, List.mem_eraseDups, List.mem_append, mem_reached_callees,
    mem_reached_callers] at member
  rcases member with ⟨new, seed, given, near⟩ | ⟨new, seed, given, near⟩
  · exact ⟨seed, given, (ne_of_mem_of_not_mem given new).symm, .inl ⟨seed, List.mem_cons_self, near⟩⟩
  · exact ⟨seed, given, (ne_of_mem_of_not_mem given new).symm, .inr ⟨seed, List.mem_cons_self, near⟩⟩

/-- Chains of the path style show shortest ways between the seeds and the wanted methods. The search from a
seed shows exactly one way to each wanted method within its limit, and this is the only way shown with
these ends unless that method is a seed too and the seed is wanted. Every related method is at the end of
some way. -/
theorem chains_shortest (graph : CallGraph) (seeds wanted : List MethodId) (up down : Nat) :
    let ways := seeds.flatMap (graph.waysOf wanted up down)
    let related := graph.related seeds up down
    (∀ cap, ways.length ≤ cap → graph.chains seeds wanted up down .path cap =
      (ways.map fun way => Text.joinWith " -> " (way.map (·.displayName))).eraseDups) ∧
    (∀ way ∈ ways, ∃ first last, ShortestWay graph.Calls first last way ∧
      (first ∈ seeds ∧ last ∈ wanted ∧ way.length ≤ down + 1 ∨
        first ∈ wanted ∧ last ∈ seeds ∧ way.length ≤ up + 1)) ∧
    (∀ seed ∈ seeds, ∀ id ∈ wanted, id ≠ seed → Within graph.Calls [seed] down id →
      JoinedOnce (graph.waysOf wanted up down seed) seed id ∧
        (id ∉ seeds ∨ seed ∉ wanted → JoinedOnce ways seed id)) ∧
    (∀ seed ∈ seeds, ∀ id ∈ wanted, id ≠ seed → Within graph.CalledBy [seed] up id →
      JoinedOnce (graph.waysOf wanted up down seed) id seed ∧
        (id ∉ seeds ∨ seed ∉ wanted → JoinedOnce ways id seed)) ∧
    ∀ id ∈ related, ∃ seed ∈ seeds, ∃ way ∈ graph.waysOf related up down seed,
      Joins seed id way ∨ Joins id seed way := by
  intro ways related
  refine ⟨fun cap enough => ?_, fun way shown => ?_, fun seed given id member apart within => ?_,
    fun seed given id member apart within => ?_, fun id member => ?_⟩
  · have short : ((ways.map ChainStyle.path.render).eraseDups).length ≤ cap :=
      (length_eraseDups_le _).trans (by rwa [List.length_map])
    exact List.take_of_length_le short
  · obtain ⟨seed, given, shown⟩ := List.mem_flatMap.mp shown
    rcases mem_waysOf.mp shown with ⟨id, member, found⟩ | ⟨id, member, found⟩
    · exact ⟨seed, id, shortest_of_callees found, .inl ⟨given, member, found.length_le⟩⟩
    -- A search among the callers finds the way backwards.
    · have shortest := shortest_of_callers found
      have length := found.length_le
      rw [List.reverse_reverse] at shortest
      rw [List.length_reverse] at length
      exact ⟨id, seed, shortest, .inr ⟨member, given, length⟩⟩
  · exact ⟨joinedOnce_waysOf_below member apart within,
      fun oneWay => joinedOnce_below given member apart oneWay within⟩
  · exact ⟨joinedOnce_waysOf_above member apart within,
      fun oneWay => joinedOnce_above given member apart oneWay within⟩
  · obtain ⟨seed, given, apart, below | above⟩ := exists_seed_of_mem_related member
    · obtain ⟨way, ⟨shown, joined⟩, -⟩ := joinedOnce_waysOf_below member apart below
      exact ⟨seed, given, way, shown, .inl joined⟩
    · obtain ⟨way, ⟨shown, joined⟩, -⟩ := joinedOnce_waysOf_above member apart above
      exact ⟨seed, given, way, shown, .inr joined⟩

theorem not_joinedOnce_twoSeeds :
    let top : MethodId := ⟨"T", "top", none⟩
    let left : MethodId := ⟨"T", "left", none⟩
    let right : MethodId := ⟨"T", "right", none⟩
    let bottom : MethodId := ⟨"T", "bottom", none⟩
    let graph := ofLog [.call top left, .call top right, .call right bottom, .call left bottom]
    let seeds := [top, bottom]
    let wanted := [top, bottom]
    graph.chains seeds wanted 2 2 .path 20 =
      ["T.top() -> T.left() -> T.bottom()", "T.top() -> T.right() -> T.bottom()"] ∧
    top ∈ seeds ∧ bottom ∈ wanted ∧ bottom ≠ top ∧ Within graph.Calls [top] 2 bottom ∧
    ¬ JoinedOnce (seeds.flatMap (graph.waysOf wanted 2 2)) top bottom := by
  intro top left right bottom graph seeds wanted
  refine ⟨by decide +kernel, by decide, by decide, by decide, ?_, fun once => ?_⟩
  · have first : graph.Calls top left := by unfold Calls; decide
    have second : graph.Calls left bottom := by unfold Calls; decide
    exact ⟨top, List.mem_cons_self, 2, le_rfl, .step (.step (.refl top) first) second⟩
  · have ways : seeds.flatMap (graph.waysOf wanted 2 2) =
        [[top, left, bottom], [top, right, bottom]] := by
      decide +kernel
    rw [ways] at once
    have same : [top, left, bottom] = [top, right, bottom] :=
      once.unique ⟨by decide, rfl, rfl⟩ ⟨by decide, rfl, rfl⟩
    exact absurd same (by decide)

end CallGraph

end CallContext
