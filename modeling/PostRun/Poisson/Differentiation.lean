import PostRun.Poisson.Nodes

/-!
# Differentiation at the nodes

The matrix that takes the values of a polynomial at the nodes to the values of its
derivative there.  Its entries come from the barycentric weights of the nodes.  The
diagonal is what makes every row sum to zero, so that constants have no derivative.
-/

namespace PostRun
namespace Poisson

/-- A square matrix, by rows. -/
structure Differentiation (α : Type u) where
  rows : List (List α)

namespace Differentiation

variable {α : Type u} [Scalar α]

/-- A list without the item at a place. -/
def others (nodes : List α) (j : Nat) : List α := nodes.eraseIdx j

/-- The barycentric weight of the node at a place. -/
def weight (nodes : List α) (j : Nat) (node : α) : α :=
  Scalar.ofNat 1 / Scalar.product ((others nodes j).map fun other => node - other)

/-- The nodes with their weights. -/
def weighted (nodes : List α) : List (α × α) :=
  nodes.mapIdx fun j node => (node, weight nodes j node)

/-- An entry beside the diagonal: the row belongs to the first node, the column to the second. -/
def entry (row column : α × α) : α := (column.2 / row.2) / (row.1 - column.1)

/-- The row of one node: the entries of the nodes before it, the diagonal, and those of the nodes
after it. -/
def row (before : List (α × α)) (node : α × α) (after : List (α × α)) : List α :=
  let left := before.map (entry node)
  let right := after.map (entry node)
  left ++ (left ++ right).foldl (· - ·) Scalar.zero :: right

/-- The matrix of the derivative at the nodes. -/
def ofNodes (nodes : List α) : Differentiation α :=
  let all := weighted nodes
  ⟨all.mapIdx fun i node => row (all.take i) node (all.drop (i + 1))⟩

/-- The values of the derivative at the nodes. -/
def apply (m : Differentiation α) (values : List α) : Except NodeError (List α) :=
  if values.length ≠ m.rows.length then .error (.valueCount m.rows.length values.length)
  else if m.rows.length = 0 then .error (.tooFewNodes 0)
  else .ok (m.rows.map fun row => Scalar.sum (List.zipWith (· * ·) row values))

@[simp] theorem length_rows_ofNodes (nodes : List α) :
    (ofNodes nodes).rows.length = nodes.length := by simp [ofNodes, weighted]

end Differentiation
end Poisson
end PostRun
