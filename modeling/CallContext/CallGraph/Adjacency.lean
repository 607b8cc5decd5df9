import CallContext.Collection.Table
import CallContext.MethodId

/-!
One direction of the calls: for each method the methods that it is linked to. Methods and links keep the
order in which they first came up. A method is listed only once it has a link.
-/

namespace CallContext

structure Links where
  ids : List MethodId
  nonempty : ids ≠ []
  nodup : ids.Nodup

namespace Links

def add (id : MethodId) : Option Links → Links
  | none => ⟨[id], by simp, by simp⟩
  | some links =>
    if h : id ∈ links.ids then links
    else
      { ids := links.ids ++ [id]
        nonempty := by simp
        nodup := by
          refine List.nodup_append.mpr ⟨links.nodup, by simp, fun old member other fresh => ?_⟩
          rw [List.mem_singleton.mp fresh]
          exact fun equal => h (equal ▸ member) }

end Links

abbrev Adjacency : Type :=
  Table MethodId Links

namespace Adjacency

def empty : Adjacency :=
  Table.empty

def of (adjacency : Adjacency) (id : MethodId) : List MethodId :=
  ((adjacency.get? id).map (·.ids)).getD []

def link (adjacency : Adjacency) (id other : MethodId) : Adjacency :=
  adjacency.alter id (Links.add other)

def ids (adjacency : Adjacency) : List MethodId :=
  adjacency.keys

def pairs (adjacency : Adjacency) : List (MethodId × MethodId) :=
  adjacency.toList.flatMap fun (id, links) => links.ids.map fun other => (id, other)

def degrees (adjacency : Adjacency) : List (MethodId × Nat) :=
  adjacency.toList.map fun (id, links) => (id, links.ids.length)

def size (adjacency : Adjacency) : Nat :=
  adjacency.degrees.foldl (fun size degree => size + degree.2) 0

theorem of_link (adjacency : Adjacency) (id other place : MethodId) :
    (adjacency.link id other).of place =
      if place = id then
        if other ∈ adjacency.of id then adjacency.of id else adjacency.of id ++ [other]
      else adjacency.of place := by
  unfold of link
  rw [Table.get?_alter]
  by_cases here : place = id
  · rw [if_pos here, if_pos here]
    cases adjacency.get? id with
    | none => simp [Links.add]
    | some links => by_cases known : other ∈ links.ids <;> simp [Links.add, known]
  · rw [if_neg here, if_neg here]

theorem mem_of_link (adjacency : Adjacency) (id other place linked : MethodId) :
    linked ∈ (adjacency.link id other).of place ↔
      linked ∈ adjacency.of place ∨ place = id ∧ linked = other := by
  rw [of_link]
  by_cases here : place = id
  · subst here
    by_cases known : other ∈ adjacency.of place
    · rw [if_pos rfl, if_pos known]
      refine ⟨.inl, ?_⟩
      rintro (old | ⟨-, rfl⟩)
      · exact old
      · exact known
    · simp [known]
  · simp [here]

theorem mem_ids (adjacency : Adjacency) (id : MethodId) : id ∈ adjacency.ids ↔ adjacency.of id ≠ [] := by
  unfold ids of
  rw [Table.mem_keys_iff]
  cases adjacency.get? id with
  | none => simp
  | some links => simpa using links.nonempty

end Adjacency

end CallContext
