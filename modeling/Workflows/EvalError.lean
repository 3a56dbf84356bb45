/-!
# EvalError — questions about values that have no answer
-/

namespace Workflows

/-- A question about values that has no answer: a comparison, a text operation or a look-up met a
value it is not made for. -/
inductive EvalError
  | unorderedOperand
  | textOperand
  | conditionsNotObject
  | locatorMode
  | locatorName
  deriving DecidableEq, Repr

end Workflows
