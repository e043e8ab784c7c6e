import ScriptLowering.Mir.Basic

/-! # Walking the middle representation

The read-only walk visits a subtree in pre-order: a node, then its children in tree order (a
function's parameters, then its body), and below a variable or expression statement its
expressions. An expression is visited before the expressions inside it: an assignment's
value, a property access's receiver (and a property write's value after it), an object's
values in entry order, a call's receiver and then its arguments, the arguments of a new
instance. Empty argument slots are skipped.
-/

namespace ScriptLowering.Mir

/-- What the walk meets: a node, or an expression held by one. -/
inductive Visit where
  | node (id : Nat)
  | expression (value : Expression)
  deriving Inhabited

mutual

/-- The visits of an expression and the expressions inside it. -/
def Expression.visits : Expression → List Visit
  | .const span value => [.expression (.const span value)]
  | .get span symbol => [.expression (.get span symbol)]
  | .set span symbol value => .expression (.set span symbol value) :: value.visits
  | .getProperty span receiver name =>
    .expression (.getProperty span receiver name) :: receiver.visits
  | .setProperty span receiver name value =>
    .expression (.setProperty span receiver name value) :: (receiver.visits ++ value.visits)
  | .object span entries => .expression (.object span entries) :: Expression.entryVisits entries
  | .call span receiver arguments =>
    .expression (.call span receiver arguments) ::
      (receiver.visits ++ Expression.argumentVisits arguments)
  | .newInstance span classSymbol arguments =>
    .expression (.newInstance span classSymbol arguments) :: Expression.argumentVisits arguments

/-- The visits of the arguments present. -/
def Expression.argumentVisits : List (Option Expression) → List Visit
  | [] => []
  | none :: rest => Expression.argumentVisits rest
  | some argument :: rest => argument.visits ++ Expression.argumentVisits rest

/-- The visits of an object's values. -/
def Expression.entryVisits : List (String × Expression) → List Visit
  | [] => []
  | (_, value) :: rest => value.visits ++ Expression.entryVisits rest

end

/-- The visits of the subtree at a node, for at most `fuel` levels. -/
def Arena.visitsFrom (arena : Arena) : (fuel : Nat) → (id : Nat) → List Visit
  | 0, _ => []
  | fuel + 1, id =>
    .node id ::
      match (arena.node id).kind with
      | .variable _ _ (some value) => value.visits
      | .expression value => value.visits
      | kind => kind.children.flatMap (arena.visitsFrom fuel)

/-- The visits of the subtree at a node. -/
def Arena.visits (arena : Arena) (id : Nat) : List Visit := arena.visitsFrom arena.nodeCount id

end ScriptLowering.Mir
