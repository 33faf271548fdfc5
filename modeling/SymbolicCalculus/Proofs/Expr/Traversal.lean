/-
Module: SymbolicCalculus.Proofs.Expr.Traversal
Layer: Proofs
Purpose: The walk over an expression visits its nodes in the order of the recursion, each once. The walk
  knows of nothing but its stack and the place that it has visited last. It takes a node for ready only if
  it comes from the node's last operand; when it gets to a node for the first time, it comes from a place
  that is no deeper than the node, so it goes into the operands first, even if equal trees stand elsewhere.
  What is asked about the nodes of an expression can therefore be read off the walk.
Main exports: Walk.Runs, Expr.VisitedWhole, Expr.traverse_eq_postOrder, Expr.length_traverse,
  Expr.walk_visits_postOrder
-/
import SymbolicCalculus.Proofs.Expr.Occurrences

namespace SymbolicCalculus

variable {α : Type}

namespace Walk

/-- In so many steps the walk visits the occurrences, in this order, and becomes the other walk. Which of the
    occurrences of a node it has visited is told by the place that it remembers then. -/
inductive Runs : Walk α → Nat → List (Occurrence α) → Walk α → Prop where
  | refl (walk : Walk α) : Runs walk 0 [] walk
  | visit {walk next later : Walk α} {steps : Nat} {here : Occurrence α} {visits : List (Occurrence α)}
      (taken : walk.step = some (next, some here.node)) (place : next.last = some here.path)
      (others : Runs next steps visits later) : Runs walk (steps + 1) (here :: visits) later
  | descend {walk next later : Walk α} {steps : Nat} {visits : List (Occurrence α)}
      (taken : walk.step = some (next, none)) (others : Runs next steps visits later) :
      Runs walk (steps + 1) visits later

theorem Runs.trans {walk later last : Walk α} {steps steps' : Nat} {visits visits' : List (Occurrence α)}
    (first : Runs walk steps visits later) (second : Runs later steps' visits' last) :
    Runs walk (steps + steps') (visits ++ visits') last := by
  induction first with
  | refl walk =>
    rw [Nat.zero_add]
    exact second
  | visit taken place _ ih =>
    rw [Nat.add_right_comm]
    exact .visit taken place (ih second)
  | descend taken _ ih =>
    rw [Nat.add_right_comm]
    exact .descend taken (ih second)

/-- What a bounded walk returns begins with the nodes that are visited within the bound. -/
theorem Runs.run_eq {walk later : Walk α} {steps : Nat} {visits : List (Occurrence α)}
    (runs : Runs walk steps visits later) (more : Nat) :
    walk.run (steps + more) = visits.map Occurrence.node ++ later.run more := by
  induction runs with
  | refl walk => rw [Nat.zero_add, List.map_nil, List.nil_append]
  | visit taken _ _ ih =>
    rw [Nat.add_right_comm, run, taken]
    simp only [ih, List.map_cons, List.cons_append]
  | descend taken _ ih =>
    rw [Nat.add_right_comm, run, taken]
    exact ih

/-- A node that is ready is visited. -/
theorem runs_of_ready {top : Occurrence α} {below : List (Occurrence α)} {last : Option (List Nat)}
    (ready : isReady ⟨top :: below, last⟩ top = true) :
    Runs ⟨top :: below, last⟩ 1 [top] ⟨below, some top.path⟩ := by
  refine .visit ?_ rfl (.refl _)
  simp only [step, ready, if_true]

/-- A node that is not ready stays under its operands. -/
theorem runs_of_not_ready {top : Occurrence α} {below : List (Occurrence α)}
    {last : Option (List Nat)} (ready : isReady ⟨top :: below, last⟩ top = false) :
    Runs ⟨top :: below, last⟩ 1 [] ⟨top.operands ++ top :: below, last⟩ := by
  refine .descend ?_ (.refl _)
  simp only [step, ready, Bool.false_eq_true, if_false]

theorem run_nil (steps : Nat) (last : Option (List Nat)) : run steps (⟨[], last⟩ : Walk α) = [] := by
  cases steps <;> rfl

/-- The place visited last is no deeper than so many operands below the root. -/
def NoDeeper (depth : Nat) (last : Option (List Nat)) : Prop :=
  ∀ path, last = some path → path.length ≤ depth

end Walk

namespace Expr

open Walk (Runs NoDeeper)

/-! ### The walk over one expression -/

/-- A walk that gets to the expression from a place no deeper visits all its nodes, in the order of the
    recursion, and goes on with what is below it on the stack. Two steps for each node are enough. -/
def VisitedWhole (e : Expr α) : Prop :=
  ∀ (path : List Nat) (below : List (Occurrence α)) (last : Option (List Nat)),
    NoDeeper path.length last → ∃ steps ≤ 2 * e.nodeCount,
      Runs ⟨⟨path, e⟩ :: below, last⟩ steps (e.occurrences path) ⟨below, some path⟩

/-- A row of operands on the stack, numbered from a given one on. -/
def stacked (path : List Nat) : Nat → List (Expr α) → List (Occurrence α)
  | _, [] => []
  | index, first :: others => ⟨index :: path, first⟩ :: stacked path (index + 1) others

theorem operands_eq_stacked (path : List Nat) (e : Expr α) :
    (⟨path, e⟩ : Occurrence α).operands = stacked path 0 e.operands := by
  have numbered : ∀ (es : List (Expr α)) (index : Nat),
      (es.mapIdx fun i operand => (⟨(index + i) :: path, operand⟩ : Occurrence α)) =
        stacked path index es := by
    intro es
    induction es with
    | nil => exact fun _ => rfl
    | cons first others ih =>
      intro index
      rw [List.mapIdx_cons, stacked, ← ih (index + 1)]
      simp only [Nat.add_zero, Nat.add_assoc, Nat.add_comm 1]
  have whole := numbered e.operands 0
  simp only [Nat.zero_add] at whole
  exact whole

theorem getLast?_stacked (path : List Nat) (index : Nat) (first : Expr α) (others : List (Expr α)) :
    ∃ node, (stacked path index (first :: others)).getLast? =
      some ⟨(index + others.length) :: path, node⟩ := by
  induction others generalizing index first with
  | nil => exact ⟨first, rfl⟩
  | cons second others ih =>
    obtain ⟨node, last⟩ := ih (index + 1) second
    refine ⟨node, ?_⟩
    rw [stacked, stacked, List.getLast?_cons_cons, ← stacked, last, List.length_cons]
    simp only [Nat.add_assoc, Nat.add_comm 1]

/-- Operands are visited one after the other. The next one is reached from the one before it, which lies
    as deep. -/
theorem runs_stacked (path : List Nat) (below : List (Occurrence α)) :
    ∀ (first : Expr α) (others : List (Expr α)) (index : Nat) (last : Option (List Nat)),
      (∀ e ∈ first :: others, e.VisitedWhole) → NoDeeper (path.length + 1) last →
        ∃ steps ≤ 2 * nodeCountOfAll (first :: others),
          Runs ⟨stacked path index (first :: others) ++ below, last⟩ steps
            (occurrencesOfAll path index (first :: others))
            ⟨below, some ((index + others.length) :: path)⟩
  | first, [], index, last, whole, bound => by
      obtain ⟨steps, few, runs⟩ := whole first List.mem_cons_self (index :: path) below last bound
      refine ⟨steps, few, ?_⟩
      rw [occurrencesOfAll, occurrencesOfAll, List.append_nil]
      exact runs
  | first, second :: others, index, last, whole, bound => by
      obtain ⟨steps, few, runs⟩ := whole first List.mem_cons_self (index :: path)
        (stacked path (index + 1) (second :: others) ++ below) last bound
      have deep : NoDeeper (path.length + 1) (some (index :: path)) := by
        rintro _ ⟨⟩
        exact Nat.le_refl _
      obtain ⟨steps', few', runs'⟩ :=
        runs_stacked path below second others (index + 1) (some (index :: path))
          (fun e mem => whole e (List.mem_cons_of_mem first mem)) deep
      have next : index + 1 + others.length = index + (second :: others).length := by
        rw [List.length_cons]
        omega
      rw [next] at runs'
      refine ⟨steps + steps', ?_, runs.trans runs'⟩
      rw [nodeCountOfAll]
      omega

/-- An expression is visited whole if its operands are. -/
theorem visitedWhole_of_operands (e : Expr α) (whole : ∀ operand ∈ e.operands, operand.VisitedWhole) :
    e.VisitedWhole := by
  intro path below last bound
  have numbered := operands_eq_stacked path e
  rw [occurrences_eq, nodeCount_eq]
  cases operands_are : e.operands with
  | nil =>
    have ready : Walk.isReady ⟨⟨path, e⟩ :: below, last⟩ ⟨path, e⟩ = true := by
      rw [Walk.isReady, numbered, operands_are]
      rfl
    exact ⟨1, by omega, Walk.runs_of_ready ready⟩
  | cons first others =>
    rw [operands_are] at numbered whole
    obtain ⟨node, lastOperand⟩ := getLast?_stacked path 0 first others
    have comesFirst : Walk.isReady ⟨⟨path, e⟩ :: below, last⟩ ⟨path, e⟩ = false := by
      rw [Walk.isReady, numbered, lastOperand]
      simp only [beq_eq_false_iff_ne]
      intro comesBack
      have short := bound _ comesBack
      rw [List.length_cons] at short
      omega
    have comesBack : Walk.isReady ⟨⟨path, e⟩ :: below, some ((0 + others.length) :: path)⟩ ⟨path, e⟩ =
        true := by
      rw [Walk.isReady, numbered, lastOperand]
      exact beq_self_eq_true _
    have descends := Walk.runs_of_not_ready comesFirst
    rw [numbered] at descends
    obtain ⟨steps, few, inside⟩ := runs_stacked path (⟨path, e⟩ :: below) first others 0 last whole
      fun p known => Nat.le_succ_of_le (bound p known)
    refine ⟨1 + steps + 1, by omega, ?_⟩
    exact (descends.trans inside).trans (Walk.runs_of_ready comesBack)

theorem visitedWhole (e : Expr α) : e.VisitedWhole := induction_on_operands visitedWhole_of_operands e

/-! ### The walk from the root -/

/-- From the root, the walk visits every occurrence and then has nothing left on the stack. -/
theorem exists_runs_start (e : Expr α) : ∃ steps ≤ 2 * e.nodeCount,
    Runs (Walk.start e) steps (e.occurrences []) ⟨[], some []⟩ :=
  visitedWhole e [] [] none (by rintro _ ⟨⟩)

/-- The walk visits the nodes in the order of the recursion. -/
theorem traverse_eq_postOrder (e : Expr α) : e.traverse = e.postOrder := by
  obtain ⟨steps, enough, runs⟩ := exists_runs_start e
  obtain ⟨left, total⟩ : ∃ left, 2 * e.nodeCount = steps + left :=
    ⟨2 * e.nodeCount - steps, by omega⟩
  rw [traverse, total, runs.run_eq, Walk.run_nil, List.append_nil, map_node_occurrences]

/-- The number of nodes is the number of visits. -/
theorem length_traverse (e : Expr α) : e.traverse.length = e.nodeCount := by
  rw [traverse_eq_postOrder, length_postOrder]

/-- A variable occurs if one of the nodes visited is a symbol with its name. -/
theorem any_traverse (e : Expr α) (var : String) :
    (e.traverse.any fun node => node.asSymbol? == some var) = e.dependsOn var := by
  rw [traverse_eq_postOrder, Bool.eq_iff_iff, List.any_eq_true, dependsOn_eq_true_iff,
    ← filterMap_postOrder, List.mem_filterMap]
  simp only [beq_iff_eq]

/-- A variable occurs if it stands at some place. -/
theorem dependsOn_iff {e : Expr α} {var : String} :
    e.dependsOn var = true ↔ ∃ place, e.at? place = some (symbol var) := by
  rw [dependsOn_eq_true_iff, mem_symbols_iff, mem_postOrder_iff]

/-- The walk with a stack is the recursion in post-order. It ends after at most two steps for each node. It
    has then visited the nodes of the recursion in their order, and each occurrence once: the places of the
    visits are the places of the tree, without repetition, also where equal trees stand in several places
    and where a call has no arguments. So the number of visits is the number of nodes of the tree, and a
    variable is met exactly if it stands at some place, those in arguments of calls included. The free
    symbols and whether there are any are read off the visits too. -/
theorem walk_visits_postOrder (e : Expr α) :
    (∃ steps ≤ 2 * e.nodeCount, ∃ ended : Walk α,
      Runs (Walk.start e) steps (e.occurrences []) ended ∧ ended.step = none) ∧
    (e.occurrences []).map Occurrence.node = e.postOrder ∧
    ((e.occurrences []).map Occurrence.path).Nodup ∧
    (∀ here : Occurrence α,
      here ∈ e.occurrences [] ↔ e.at? here.path.reverse = some here.node) ∧
    e.traverse = e.postOrder ∧ e.traverse.length = e.nodeCount ∧
    (∀ var, (e.traverse.any fun node => node.asSymbol? == some var) = e.dependsOn var ∧
      (e.dependsOn var = true ↔ ∃ place, e.at? place = some (symbol var))) ∧
    (e.traverse.filterMap asSymbol?).foldr insertName [] = e.freeSymbols ∧
    (e.traverse.filterMap asSymbol?).isEmpty = e.isConstant := by
  obtain ⟨steps, few, runs⟩ := exists_runs_start e
  have symbols_are : e.traverse.filterMap asSymbol? = e.symbols := by
    rw [traverse_eq_postOrder, filterMap_postOrder]
  refine ⟨⟨steps, few, _, runs, rfl⟩, map_node_occurrences e [], nodup_occurrences e [],
    fun here => mem_occurrences, traverse_eq_postOrder e, length_traverse e,
    fun var => ⟨any_traverse e var, dependsOn_iff⟩, ?_, ?_⟩
  · rw [symbols_are, freeSymbols]
  · rw [symbols_are, isConstant]

/-- Two calls without arguments, which are equal trees in two places. -/
example : ((binary .add (call "f" []) (call "f" []) : Expr Nat).occurrences []).map Occurrence.path =
    [[0], [1], []] := rfl

end Expr

end SymbolicCalculus
