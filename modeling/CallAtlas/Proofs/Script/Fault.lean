import Mathlib
import CallAtlas.Proofs.Script.Sweep
import CallAtlas.Script.SourceText

/-!
# Which faults are counted

A count goes through a tree with a stack and leaves out what has no fault. It comes to **the
outermost faults** of the tree (`Node.faults`). What the stack stands for are the outermost
faults still to be found on it: taking a fault off it finds one, taking off a node without a
fault loses none, and the parts of any other node stand for the same faults as the node
(`countFaults_eq`).

So strict reading refuses exactly the texts whose trees have a fault, and says how many
(`ParsedFile.ofText_strict`).
-/

namespace CallAtlas.Script

/-! ### Outermost faults -/

mutual

/-- The faults of a tree that stand in no other fault, in document order. -/
def Node.faults : Node → List Node
  | .mk kind role text startLine endLine children =>
      if kind.isFault then [.mk kind role text startLine endLine children]
      else faultsOfParts children

/-- The same for some trees. -/
def faultsOfParts : List Node → List Node
  | [] => []
  | part :: parts => part.faults ++ faultsOfParts parts

end

mutual

theorem Node.hasFault_iff : (n : Node) → (n.hasFault = true ↔ n.faults ≠ [])
  | .mk kind _ _ _ _ children => by
      rw [Node.hasFault, Node.faults, Bool.or_eq_true, anyFault_iff children]
      split
      · simp [*]
      · simp [*]

theorem anyFault_iff : (parts : List Node) → (anyFault parts = true ↔ faultsOfParts parts ≠ [])
  | [] => by simp [anyFault, faultsOfParts]
  | part :: parts => by
      rw [anyFault, faultsOfParts, Bool.or_eq_true, Node.hasFault_iff part, anyFault_iff parts,
        ← not_and_or, ← List.append_eq_nil_iff]

end

theorem faultsOfParts_eq (parts : List Node) : faultsOfParts parts = parts.flatMap Node.faults := by
  induction parts with
  | nil => rfl
  | cons part parts ih => rw [faultsOfParts, ih, List.flatMap_cons]

theorem Node.faults_of_isFault {n : Node} (h : n.kind.isFault = true) : n.faults = [n] := by
  cases n
  exact if_pos h

theorem Node.faults_of_not_isFault {n : Node} (h : n.kind.isFault = false) :
    n.faults = n.children.flatMap faults := by
  obtain ⟨kind, role, text, startLine, endLine, children⟩ := n
  have hkind : ¬ kind.isFault = true := ne_true_of_eq_false h
  rw [Node.faults, if_neg hkind, faultsOfParts_eq]
  rfl

theorem Node.faults_eq_nil {n : Node} (h : n.hasFault = false) : n.faults = [] := by
  have hiff := n.hasFault_iff
  rw [h] at hiff
  simpa using hiff

/-! ### The count -/

theorem sizeOfParts_eq (parts : List Node) : sizeOfParts parts = (parts.map Node.size).sum := by
  induction parts with
  | nil => rfl
  | cons part parts ih => rw [sizeOfParts, ih, List.map_cons, List.sum_cons]

theorem Node.size_eq (n : Node) : n.size = (n.children.map size).sum + 1 := by
  cases n
  rw [Node.size, sizeOfParts_eq]
  rfl

/-- **A count comes to the outermost faults** that its stack stands for. More fuel than there
are nodes would change nothing. -/
theorem countFaults_eq {fuel : Nat} {stack : Array Node} (count : Nat)
    (h : (stack.toList.map Node.size).sum ≤ fuel) :
    countFaults fuel stack count = count + (stack.toList.flatMap Node.faults).length := by
  induction fuel generalizing stack count with
  | zero =>
      -- Every node takes one unit of fuel, so nothing is on the stack.
      cases hstack : stack.toList with
      | nil => rfl
      | cons n rest =>
          rw [hstack, List.map_cons, List.sum_cons, n.size_eq] at h
          omega
  | succ fuel ih =>
      rw [countFaults]
      cases htop : stack.back? with
      | none =>
          rw [Array.back?_eq_none_iff] at htop
          rw [htop]
          rfl
      | some n =>
          rw [toList_of_back? htop, List.map_append, List.sum_append, List.map_singleton,
            List.sum_singleton, n.size_eq] at h
          rw [toList_of_back? htop, List.flatMap_append, List.flatMap_singleton,
            List.length_append]
          have hpop : (stack.pop.toList.map Node.size).sum ≤ fuel := by omega
          dsimp only
          split
          · rename_i hfault
            rw [ih _ hpop, Node.faults_of_isFault hfault, List.length_singleton]
            omega
          · rename_i hfault
            split
            · rename_i hnone
              rw [ih _ hpop, Node.faults_eq_nil (by simpa using hnone), List.length_nil,
                Nat.add_zero]
            · have hparts :
                  ((stack.pop ++ n.children).toList.map Node.size).sum ≤ fuel := by
                rw [Array.toList_appendList, List.map_append, List.sum_append]
                omega
              rw [ih _ hparts, Array.toList_appendList, List.flatMap_append, List.length_append,
                Node.faults_of_not_isFault (by simpa using hfault)]

theorem Node.faultCount_eq (tree : Node) : tree.faultCount = tree.faults.length := by
  unfold faultCount
  rw [countFaults_eq 0 (by simp)]
  simp

/-- **Strict reading** accepts the texts whose trees have no fault, and refuses the others with
the number of their outermost faults. -/
theorem ParsedFile.ofText_strict (path group : String) (language : Language) (text : String) :
    ofText true path group language text =
      if (read language text).faults = [] then ofText false path group language text
      else .error (.brokenText path (read language text).faults.length) := by
  unfold ofText
  dsimp only
  cases hfault : (read language text).hasFault with
  | false =>
      rw [if_pos (Node.faults_eq_nil hfault)]
      rfl
  | true =>
      have hne : (read language text).faults ≠ [] := (Node.hasFault_iff _).mp hfault
      have hpos : 1 ≤ (read language text).faults.length := List.length_pos_iff.mpr hne
      rw [if_neg hne, Node.faultCount_eq, Nat.max_eq_left hpos]
      rfl

end CallAtlas.Script
