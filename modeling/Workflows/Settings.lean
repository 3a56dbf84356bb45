import Workflows.Value

/-!
# Settings — what a user can adjust
-/

namespace Workflows

structure Settings where
  /-- The profile that is used when none is named. -/
  defaultProfile : Value := .str "runtime"
  /-- How deep parameters are searched for expressions. -/
  maxExpressionDepth : Number := .int 100
  /-- How many nodes a chain may have before it is reported. -/
  longChainThreshold : Number := .int 10
  /-- How many links may lead back from the body of a loop. -/
  loopBackMaxDepth : Number := .int 50
  /-- How many operations a batch may have; any number when there is no limit. -/
  maxOperations : Option Number := none
  /-- Where the catalog lies; the bundled one is used when no place is given. -/
  catalogPath : Option String := none
  deriving Repr

end Workflows
