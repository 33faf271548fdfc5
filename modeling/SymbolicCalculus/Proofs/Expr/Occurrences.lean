/-
Module: SymbolicCalculus.Proofs.Expr.Occurrences
Layer: Proofs
Purpose: The nodes of an expression with their places. A place tells how to descend from the root to a node;
  equal trees that stand in several places are told apart by it. The recursion on the tree comes to every
  place once, each after the places of its operands.
Main exports: Expr.induction_on_operands, Expr.length_postOrder, Expr.filterMap_postOrder,
  Expr.mem_symbols_iff, Expr.dependsOn_eq_true_iff, Expr.mem_freeSymbols, Expr.at?, Expr.occurrences,
  Expr.map_node_occurrences, Expr.mem_occurrences, Expr.nodup_occurrences, Expr.mem_postOrder_iff
-/
import SymbolicCalculus.Expr.Traversal

namespace SymbolicCalculus.Expr

variable {α : Type}

/-! ### Operands -/

mutual

/-- What holds of every expression of whose operands it holds, holds of all expressions. -/
theorem induction_on_operands {motive : Expr α → Prop}
    (step : ∀ e, (∀ operand ∈ e.operands, motive operand) → motive e) : ∀ e, motive e
  | number _ | symbol _ => step _ (List.forall_mem_nil _)
  | neg operand | apply _ operand =>
      step _ (List.forall_mem_singleton.2 (induction_on_operands step operand))
  | binary _ left right =>
      step _ (List.forall_mem_cons.2 ⟨induction_on_operands step left,
        List.forall_mem_singleton.2 (induction_on_operands step right)⟩)
  | call _ arguments => step _ (induction_on_row step arguments)

theorem induction_on_row {motive : Expr α → Prop}
    (step : ∀ e, (∀ operand ∈ e.operands, motive operand) → motive e) :
    ∀ es : List (Expr α), ∀ e ∈ es, motive e
  | [] => List.forall_mem_nil _
  | first :: others =>
      List.forall_mem_cons.2 ⟨induction_on_operands step first, induction_on_row step others⟩

end

theorem postOrder_eq (e : Expr α) : e.postOrder = postOrderOfAll e.operands ++ [e] := by
  cases e <;> simp [postOrder, postOrderOfAll, operands]

theorem nodeCount_eq (e : Expr α) : e.nodeCount = nodeCountOfAll e.operands + 1 := by
  cases e <;> simp [nodeCount, nodeCountOfAll, operands]

theorem symbols_eq (e : Expr α) :
    e.symbols = symbolsOfAll e.operands ++ (e.asSymbol?).toList := by
  cases e <;> simp [symbols, symbolsOfAll, operands, asSymbol?]

/-! ### What is read off the nodes in post-order -/

theorem length_postOrderOfAll : ∀ {es : List (Expr α)},
    (∀ e ∈ es, e.postOrder.length = e.nodeCount) → (postOrderOfAll es).length = nodeCountOfAll es
  | [], _ => rfl
  | first :: others, each => by
      obtain ⟨here, behind⟩ := List.forall_mem_cons.1 each
      rw [postOrderOfAll, nodeCountOfAll, List.length_append, here, length_postOrderOfAll behind]

/-- There are as many nodes as are counted. -/
theorem length_postOrder (e : Expr α) : e.postOrder.length = e.nodeCount := by
  induction e using induction_on_operands with
  | step e inner =>
    rw [postOrder_eq, nodeCount_eq, List.length_append, length_postOrderOfAll inner]
    rfl

theorem filterMap_postOrderOfAll : ∀ {es : List (Expr α)},
    (∀ e ∈ es, e.postOrder.filterMap asSymbol? = e.symbols) →
      (postOrderOfAll es).filterMap asSymbol? = symbolsOfAll es
  | [], _ => rfl
  | first :: others, each => by
      obtain ⟨here, behind⟩ := List.forall_mem_cons.1 each
      rw [postOrderOfAll, symbolsOfAll, List.filterMap_append, here, filterMap_postOrderOfAll behind]

/-- The symbols are the names of those nodes that are symbols. -/
theorem filterMap_postOrder (e : Expr α) : e.postOrder.filterMap asSymbol? = e.symbols := by
  induction e using induction_on_operands with
  | step e inner =>
    rw [postOrder_eq, symbols_eq, List.filterMap_append, filterMap_postOrderOfAll inner]
    cases e <;> rfl

theorem asSymbol?_eq_some {e : Expr α} {name : String} :
    e.asSymbol? = some name ↔ e = symbol name := by
  cases e <;> simp [asSymbol?]

theorem mem_symbols_iff {e : Expr α} {name : String} :
    name ∈ e.symbols ↔ symbol name ∈ e.postOrder := by
  rw [← filterMap_postOrder, List.mem_filterMap]
  constructor
  · rintro ⟨node, mem, named⟩
    rwa [← asSymbol?_eq_some.1 named]
  · intro mem
    exact ⟨_, mem, rfl⟩

/-- A variable occurs if its name is among the symbols. -/
theorem dependsOn_eq_true_iff {e : Expr α} {var : String} :
    e.dependsOn var = true ↔ var ∈ e.symbols := by
  rw [dependsOn, List.contains_iff_mem]

theorem dependsOn_eq_false_iff {e : Expr α} {var : String} :
    e.dependsOn var = false ↔ var ∉ e.symbols := by
  rw [← Bool.not_eq_true, dependsOn_eq_true_iff]

theorem mem_insertName {name inserted : String} {names : List String} :
    name ∈ insertName inserted names ↔ name = inserted ∨ name ∈ names := by
  induction names with
  | nil => simp [insertName]
  | cons first others ih =>
    unfold insertName
    split
    · simp
    · split
      · next same => simp [same]
      · simp only [List.mem_cons, ih]
        exact or_left_comm

/-- Putting the symbols in order loses none and adds none. -/
theorem mem_freeSymbols {name : String} {e : Expr α} : name ∈ e.freeSymbols ↔ name ∈ e.symbols := by
  unfold freeSymbols
  induction e.symbols with
  | nil => exact Iff.rfl
  | cons first others ih => rw [List.foldr_cons, mem_insertName, ih, List.mem_cons]

/-! ### Places -/

/-- The node at a place, which is given by the numbers of the operands to descend to, from the root on. -/
def at? : Expr α → List Nat → Option (Expr α)
  | e, [] => some e
  | e, index :: rest =>
      match e.operands[index]? with
      | none => none
      | some operand => operand.at? rest

@[simp] theorem at?_nil (e : Expr α) : e.at? [] = some e := by
  rw [at?]

theorem at?_cons {e node : Expr α} {index : Nat} {rest : List Nat} :
    e.at? (index :: rest) = some node ↔
      ∃ operand, e.operands[index]? = some operand ∧ operand.at? rest = some node := by
  rw [at?]
  cases e.operands[index]? with
  | none => simp
  | some operand => simp

/-! ### Occurrences -/

mutual

/-- The occurrences of all nodes of an expression that stands at a given path itself, each after those of
    its operands. -/
def occurrences (path : List Nat) : Expr α → List (Occurrence α)
  | number value => [⟨path, number value⟩]
  | symbol name => [⟨path, symbol name⟩]
  | neg operand => operand.occurrences (0 :: path) ++ [⟨path, neg operand⟩]
  | apply function operand => operand.occurrences (0 :: path) ++ [⟨path, apply function operand⟩]
  | binary op left right =>
      left.occurrences (0 :: path) ++ right.occurrences (1 :: path) ++ [⟨path, binary op left right⟩]
  | call name arguments => occurrencesOfAll path 0 arguments ++ [⟨path, call name arguments⟩]

/-- The occurrences of all nodes of a row of operands, which are numbered from the given number on. -/
def occurrencesOfAll (path : List Nat) (index : Nat) : List (Expr α) → List (Occurrence α)
  | [] => []
  | first :: others =>
      first.occurrences (index :: path) ++ occurrencesOfAll path (index + 1) others

end

theorem occurrences_eq (path : List Nat) (e : Expr α) :
    e.occurrences path = occurrencesOfAll path 0 e.operands ++ [⟨path, e⟩] := by
  cases e <;> simp [occurrences, occurrencesOfAll, operands]

theorem map_node_occurrencesOfAll {path : List Nat} : ∀ {es : List (Expr α)} {index : Nat},
    (∀ e ∈ es, ∀ path, (e.occurrences path).map Occurrence.node = e.postOrder) →
      (occurrencesOfAll path index es).map Occurrence.node = postOrderOfAll es
  | [], _, _ => rfl
  | first :: others, _, each => by
      obtain ⟨here, behind⟩ := List.forall_mem_cons.1 each
      rw [occurrencesOfAll, postOrderOfAll, List.map_append, here, map_node_occurrencesOfAll behind]

/-- Without their places, the occurrences are the nodes in post-order. -/
theorem map_node_occurrences (e : Expr α) :
    ∀ path, (e.occurrences path).map Occurrence.node = e.postOrder := by
  induction e using induction_on_operands with
  | step e inner =>
    intro path
    rw [occurrences_eq, postOrder_eq, List.map_append, map_node_occurrencesOfAll inner]
    rfl

/-! ### Every place once -/

/-- Of an expression at a path, those occurrences are listed whose paths lead on to a node of it. -/
def ListsPlaces (e : Expr α) : Prop :=
  ∀ (path : List Nat) (here : Occurrence α), here ∈ e.occurrences path ↔
    ∃ place, here.path = place.reverse ++ path ∧ e.at? place = some here.node

theorem mem_occurrencesOfAll {here : Occurrence α} {path : List Nat} :
    ∀ {es : List (Expr α)} {index : Nat}, (∀ e ∈ es, e.ListsPlaces) →
      (here ∈ occurrencesOfAll path index es ↔
        ∃ number operand place, es[number]? = some operand ∧
          here.path = place.reverse ++ (index + number) :: path ∧ operand.at? place = some here.node)
  | [], _, _ => by simp [occurrencesOfAll]
  | first :: others, index, each => by
      obtain ⟨lists, behind⟩ := List.forall_mem_cons.1 each
      rw [occurrencesOfAll, List.mem_append, lists, mem_occurrencesOfAll behind]
      constructor
      · rintro (⟨place, leads, found⟩ | ⟨number, operand, place, numbered, leads, found⟩)
        · exact ⟨0, first, place, rfl, leads, found⟩
        · refine ⟨number + 1, operand, place, numbered, ?_, found⟩
          rw [leads, Nat.add_assoc, Nat.add_comm 1]
      · rintro ⟨number, operand, place, numbered, leads, found⟩
        cases number with
        | zero =>
          cases numbered
          exact .inl ⟨place, leads, found⟩
        | succ number =>
          refine .inr ⟨number, operand, place, numbered, ?_, found⟩
          rw [leads, Nat.add_assoc, Nat.add_comm 1]

theorem listsPlaces (e : Expr α) : e.ListsPlaces := by
  induction e using induction_on_operands with
  | step e inner =>
    intro path here
    -- the number of the operand is the first step of the place and the innermost one of the path
    have turned (number : Nat) (place : List Nat) :
        (number :: place).reverse ++ path = place.reverse ++ (0 + number) :: path := by simp
    rw [occurrences_eq, List.mem_append, List.mem_singleton, mem_occurrencesOfAll inner]
    constructor
    · rintro (⟨number, operand, place, numbered, leads, found⟩ | rfl)
      · exact ⟨number :: place, leads.trans (turned number place).symm,
          at?_cons.2 ⟨operand, numbered, found⟩⟩
      · exact ⟨[], rfl, at?_nil e⟩
    · rintro ⟨place, leads, found⟩
      cases place with
      | nil =>
        obtain ⟨_, node⟩ := here
        cases leads
        cases found
        exact .inr rfl
      | cons number place =>
        obtain ⟨operand, numbered, found⟩ := at?_cons.1 found
        exact .inl ⟨number, operand, place, numbered, leads.trans (turned number place), found⟩

/-- The occurrences in a whole expression are the nodes at its places. -/
theorem mem_occurrences {e : Expr α} {here : Occurrence α} :
    here ∈ e.occurrences [] ↔ e.at? here.path.reverse = some here.node := by
  rw [listsPlaces]
  constructor
  · rintro ⟨place, leads, found⟩
    rwa [leads, List.append_nil, List.reverse_reverse]
  · intro found
    exact ⟨here.path.reverse, by rw [List.reverse_reverse, List.append_nil], found⟩

/-- The path of an occurrence in a row of operands has the number of one of them at its end. -/
theorem exists_number_of_mem {path p : List Nat} {index : Nat} {es : List (Expr α)}
    (mem : p ∈ (occurrencesOfAll path index es).map Occurrence.path) :
    ∃ number place, p = place ++ (index + number) :: path := by
  obtain ⟨here, listed, rfl⟩ := List.mem_map.1 mem
  obtain ⟨number, -, place, -, leads, -⟩ := (mem_occurrencesOfAll fun e _ => listsPlaces e).1 listed
  exact ⟨number, place.reverse, leads⟩

theorem nodup_occurrencesOfAll {path : List Nat} : ∀ {es : List (Expr α)} {index : Nat},
    (∀ e ∈ es, ∀ path, ((e.occurrences path).map Occurrence.path).Nodup) →
      ((occurrencesOfAll path index es).map Occurrence.path).Nodup
  | [], _, _ => List.nodup_nil
  | first :: others, index, each => by
      obtain ⟨here, behind⟩ := List.forall_mem_cons.1 each
      rw [occurrencesOfAll, List.map_append, List.nodup_append]
      refine ⟨here _, nodup_occurrencesOfAll behind, ?_⟩
      rintro p mem _ mem' rfl
      obtain ⟨occurrence, listed, rfl⟩ := List.mem_map.1 mem
      obtain ⟨place, leads, -⟩ := (listsPlaces first _ _).1 listed
      obtain ⟨number, place', leads'⟩ := exists_number_of_mem mem'
      have ends := List.append_inj_right' (leads.symm.trans leads') rfl
      have same : index = index + 1 + number := (List.cons.inj ends).1
      omega

/-- No place is listed twice: places in different operands part at the numbers of these, and the node itself
    is higher up than all of them. -/
theorem nodup_occurrences (e : Expr α) :
    ∀ path, ((e.occurrences path).map Occurrence.path).Nodup := by
  induction e using induction_on_operands with
  | step e inner =>
    intro path
    rw [occurrences_eq, List.map_append, List.nodup_append]
    refine ⟨nodup_occurrencesOfAll inner, List.pairwise_singleton _ _, ?_⟩
    rintro p mem q root rfl
    obtain ⟨number, place, leads⟩ := exists_number_of_mem mem
    have lengths := congrArg List.length (leads.symm.trans (List.mem_singleton.1 root))
    simp only [List.length_append, List.length_cons] at lengths
    omega

/-- A node is in post-order if it stands at some place. -/
theorem mem_postOrder_iff {e node : Expr α} :
    node ∈ e.postOrder ↔ ∃ place, e.at? place = some node := by
  rw [← map_node_occurrences e [], List.mem_map]
  constructor
  · rintro ⟨here, listed, rfl⟩
    exact ⟨here.path.reverse, mem_occurrences.1 listed⟩
  · rintro ⟨place, found⟩
    exact ⟨⟨place.reverse, node⟩, mem_occurrences.2 (by rwa [List.reverse_reverse]), rfl⟩

end SymbolicCalculus.Expr
