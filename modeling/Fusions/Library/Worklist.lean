import Mathlib.Logic.Relation
import Mathlib.Data.List.Basic

/-! Worklist search over a graph: a stack of open vertices, the visited ones, and an early stop at a goal. What the
search visits is what is reachable. -/
namespace Fusions.Library
universe u

/-- A graph in which only finitely many vertices have successors. -/
structure Graph (α : Type u) where
  vertices : List α
  succ : α → List α
  succ_eq_nil : ∀ v, v ∉ vertices → succ v = []

namespace Graph
variable {α : Type u} (G : Graph α)

def Edge (v w : α) : Prop := w ∈ G.succ v

/-- Reachability along the edges, in any number of steps. -/
abbrev Reaches : α → α → Prop := Relation.ReflTransGen G.Edge

/-- A set with the successors of its members. -/
def Closed (S : List α) : Prop := ∀ v ∈ S, ∀ w ∈ G.succ v, w ∈ S

variable {G} in
/-- Nothing leaves a closed set. -/
theorem Closed.reaches {S : List α} (h : G.Closed S) {v w : α} (hv : v ∈ S) (hreach : G.Reaches v w) : w ∈ S := by
  induction hreach with
  | refl => exact hv
  | tail _ hedge ih => exact h _ ih _ hedge

/-- Every successor of a visited vertex is visited or open. -/
def Frontier (visited stack : List α) : Prop :=
  ∀ v ∈ visited, ∀ w ∈ G.succ v, w ∈ visited ∨ w ∈ stack

variable {G} in
theorem Frontier.skip {v : α} {visited stack : List α} (h : G.Frontier visited (v :: stack)) (hv : v ∈ visited) :
    G.Frontier visited stack := by
  intro u hu w hw
  rcases h u hu w hw with hmem | hmem
  · exact .inl hmem
  · rcases List.mem_cons.1 hmem with rfl | hmem
    · exact .inl hv
    · exact .inr hmem

section
variable [DecidableEq α]

instance (S : List α) : Decidable (G.Closed S) :=
  inferInstanceAs (Decidable (∀ v ∈ S, ∀ w ∈ G.succ v, w ∈ S))

/-- The vertices still to be visited. -/
def unvisited (visited : List α) : List α := G.vertices.filter fun w => w ∉ visited

theorem unvisited_cons (v : α) (visited : List α) :
    G.unvisited (v :: visited) = (G.unvisited visited).filter fun w => w ≠ v := by
  simp only [unvisited, List.filter_filter]
  congr 1
  funext w
  simp

theorem unvisited_cons_lt {v : α} {visited : List α} (hv : v ∈ G.vertices) (hfresh : v ∉ visited) :
    (G.unvisited (v :: visited)).length < (G.unvisited visited).length := by
  rw [unvisited_cons]
  refine List.length_filter_lt_length_iff_exists.2 ⟨v, ?_, by simp⟩
  exact List.mem_filter.2 ⟨hv, by simpa using hfresh⟩

theorem unvisited_cons_of_not_mem {v : α} {visited : List α} (hv : v ∉ G.vertices) :
    G.unvisited (v :: visited) = G.unvisited visited := by
  rw [unvisited_cons, List.filter_eq_self]
  intro w hw
  have hmem : w ∈ G.vertices := (List.mem_filter.1 hw).1
  have hne : w ≠ v := fun heq => hv (by rw [← heq]; exact hmem)
  simpa using hne

/-- What a visit to `v` pushes: its unvisited successors, the last on top. -/
def pushed (visited : List α) (v : α) : List α := ((G.succ v).filter fun w => w ∉ visited).reverse

variable {G} in
theorem mem_pushed {visited : List α} {v w : α} : w ∈ G.pushed visited v ↔ G.Edge v w ∧ w ∉ visited := by
  simp [pushed, Edge]

/-- Pop a vertex; if it is new, visit it, stop when it is a goal, and push its unvisited successors. The head of
the list is the top of the stack. -/
def search (goal : α → Bool) (visited stack : List α) : Bool × List α :=
  match stack with
  | [] => (false, visited)
  | v :: rest =>
    if v ∈ visited then search goal visited rest
    else if goal v then (true, v :: visited)
    else search goal (v :: visited) (G.pushed (v :: visited) v ++ rest)
termination_by ((G.unvisited visited).length, stack.length)
decreasing_by
  · exact Prod.Lex.right _ (by simp)
  · by_cases hv : v ∈ G.vertices
    · exact Prod.Lex.left _ _ (G.unvisited_cons_lt hv ‹_›)
    · -- a vertex outside the graph pushes nothing, so the stack is shorter
      rw [G.unvisited_cons_of_not_mem hv, pushed, G.succ_eq_nil v hv]
      exact Prod.Lex.right _ (by simp)

variable {G} {goal : α → Bool} {visited stack : List α}

theorem Frontier.visit {v : α} (h : G.Frontier visited (v :: stack)) :
    G.Frontier (v :: visited) (G.pushed (v :: visited) v ++ stack) := by
  intro u hu w hw
  by_cases hnew : w ∈ v :: visited
  · exact .inl hnew
  · refine .inr (List.mem_append.2 ?_)
    rcases List.mem_cons.1 hu with rfl | hu
    · exact .inl (mem_pushed.2 ⟨hw, hnew⟩)
    · rcases h u hu w hw with hmem | hmem
      · exact absurd (List.mem_cons_of_mem _ hmem) hnew
      · rcases List.mem_cons.1 hmem with rfl | hmem
        · exact absurd (List.mem_cons_self ..) hnew
        · exact .inr hmem

/-- A search that meets no goal ends with a closed set that holds all it began with. -/
theorem search_closed (h : (G.search goal visited stack).1 = false) (hfrontier : G.Frontier visited stack) :
    G.Closed (G.search goal visited stack).2 ∧ (∀ v ∈ visited, v ∈ (G.search goal visited stack).2) ∧
      ∀ v ∈ stack, v ∈ (G.search goal visited stack).2 := by
  fun_induction search G goal visited stack with
  | case1 visited =>
    refine ⟨fun v hv w hw => ?_, fun v hv => hv, by simp⟩
    simpa using hfrontier v hv w hw
  | case2 visited v rest hv ih =>
    obtain ⟨hclosed, hvisited, hstack⟩ := ih h (hfrontier.skip hv)
    exact ⟨hclosed, hvisited, List.forall_mem_cons.2 ⟨hvisited v hv, hstack⟩⟩
  | case3 => cases h
  | case4 visited v rest hv hgoal ih =>
    obtain ⟨hclosed, hvisited, hstack⟩ := ih h hfrontier.visit
    obtain ⟨hhead, hvisited⟩ := List.forall_mem_cons.1 hvisited
    refine ⟨hclosed, hvisited, List.forall_mem_cons.2 ⟨hhead, fun w hw => hstack w ?_⟩⟩
    exact List.mem_append_right _ hw

/-- What is visited was visited before, or is reachable from the stack. -/
theorem search_sound {w : α} (hw : w ∈ (G.search goal visited stack).2) :
    w ∈ visited ∨ ∃ v ∈ stack, G.Reaches v w := by
  fun_induction search G goal visited stack with
  | case1 => exact .inl hw
  | case2 visited v rest hv ih =>
    rcases ih hw with hmem | ⟨u, hu, hreach⟩
    · exact .inl hmem
    · exact .inr ⟨u, List.mem_cons_of_mem _ hu, hreach⟩
  | case3 visited v rest =>
    rcases List.mem_cons.1 hw with rfl | hmem
    · exact .inr ⟨w, List.mem_cons_self .., .refl⟩
    · exact .inl hmem
  | case4 visited v rest hv hgoal ih =>
    rcases ih hw with hmem | ⟨u, hu, hreach⟩
    · rcases List.mem_cons.1 hmem with rfl | hmem
      · exact .inr ⟨w, List.mem_cons_self .., .refl⟩
      · exact .inl hmem
    · rcases List.mem_append.1 hu with hpushed | hrest
      · exact .inr ⟨v, List.mem_cons_self .., .head (mem_pushed.1 hpushed).1 hreach⟩
      · exact .inr ⟨u, List.mem_cons_of_mem _ hrest, hreach⟩

/-- A search stops early exactly at a goal it has visited. -/
theorem search_goal (hbefore : ∀ v ∈ visited, goal v = false) :
    (G.search goal visited stack).1 = true ↔ ∃ w ∈ (G.search goal visited stack).2, goal w = true := by
  fun_induction search G goal visited stack with
  | case1 visited =>
    refine ⟨nofun, ?_⟩
    rintro ⟨w, hw, hgoal⟩
    rw [hbefore w hw] at hgoal
    cases hgoal
  | case2 visited v rest hv ih => exact ih hbefore
  | case3 visited v rest hv hgoal => exact ⟨fun _ => ⟨v, List.mem_cons_self .., hgoal⟩, fun _ => rfl⟩
  | case4 visited v rest hv hgoal ih => exact ih (List.forall_mem_cons.2 ⟨by simpa using hgoal, hbefore⟩)

/-- Without a goal the search visits what is reachable. -/
theorem mem_search_iff (v w : α) : w ∈ (G.search (fun _ => false) [] [v]).2 ↔ G.Reaches v w := by
  constructor
  · intro hw
    simpa using search_sound hw
  · intro hreach
    have hnone : (G.search (fun _ => false) [] [v]).1 = false :=
      Bool.eq_false_iff.2 fun h => by simpa using (search_goal (by simp)).1 h
    obtain ⟨hclosed, -, hstack⟩ := search_closed hnone (by simp [Frontier])
    exact hclosed.reaches (hstack v (List.mem_singleton_self v)) hreach

/-- The search stops early exactly when a goal is reachable. -/
theorem search_iff (v : α) : (G.search goal [] [v]).1 = true ↔ ∃ w, G.Reaches v w ∧ goal w = true := by
  rw [search_goal (by simp)]
  constructor
  · rintro ⟨w, hw, hgoal⟩
    exact ⟨w, by simpa using search_sound hw, hgoal⟩
  · rintro ⟨w, hreach, hgoal⟩
    by_contra hnone
    have hfalse : (G.search goal [] [v]).1 = false :=
      Bool.eq_false_iff.2 fun htrue => hnone ((search_goal (by simp)).1 htrue)
    obtain ⟨hclosed, -, hstack⟩ := search_closed hfalse (by simp [Frontier])
    exact hnone ⟨w, hclosed.reaches (hstack v (List.mem_singleton_self v)) hreach, hgoal⟩

end
end Graph
end Fusions.Library
