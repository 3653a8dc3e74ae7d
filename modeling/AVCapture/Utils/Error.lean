import Mathlib.Data.List.Basic

/-!
# Errors with a Context Stack

Model of `Error::Error` and `Error::Result` (`utils/error.hpp`). An error is the stack
of context texts that the callers on the way up have added; the source location that
`with_context` formats in front of each text is left out.
-/

namespace AVCapture.Utils

/-- `Error::Error`, as its `context_stack_`: the innermost text first. -/
structure Error where
  contextStack : List String := []
  deriving DecidableEq, Repr

def makeError : Error := {}

def Error.withContext (e : Error) (additionalContext : String) : Error :=
  { e with contextStack := e.contextStack ++ [additionalContext] }

/-- `what`: one line for each text, the outermost one first, each indented further than the
    one before. -/
def Error.what (e : Error) : String :=
  "\n" ++ String.join (e.contextStack.reverse.zipIdx.map fun (text, depth) =>
    String.ofList (List.replicate (2 * depth) ' ') ++ text ++ "\n")

abbrev Result (α : Type) := Except Error α

abbrev VoidResult := Result Unit

def Result.failed {α : Type} : Result α → Bool
  | .ok _ => false
  | .error _ => true

@[simp] theorem Result.failed_ok {α : Type} (a : α) : Result.failed (.ok a) = false := rfl

@[simp] theorem Result.failed_error {α : Type} (e : Error) :
    Result.failed (.error e : Result α) = true := rfl

/-- `return std::unexpected(res.error().with_context(text))` on an error, else the result. -/
def Result.context {α : Type} (text : String) : Result α → Result α
  | .ok a => .ok a
  | .error e => .error (e.withContext text)

end AVCapture.Utils
