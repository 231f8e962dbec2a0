import WorkspaceControl.Json.Basic

/-!
# Values that arrive later

A `Remote` value is asked for from a service and arrives later or not at all. One constructor says
where it stands, so that there is never an error beside data, or data that nobody asked for.
-/

namespace WorkspaceControl

/-- Where a value stands that is asked for from a service. -/
inductive Remote (α : Type) where
  /-- Nobody has asked for it yet. -/
  | idle
  /-- It is asked for, and there is no earlier value. -/
  | pending
  /-- The latest request failed. -/
  | error (message : String)
  /-- The latest request brought it. -/
  | success (data : α)
  /-- It is asked for again while an earlier value is still shown. -/
  | refetching (data : α)
  deriving DecidableEq, Repr

/-- Where a value stands, without the value. -/
inductive Stage where
  | idle
  | pending
  | error
  | success
  | refetching
  deriving DecidableEq, Repr

namespace Stage

def all : List Stage := [idle, pending, error, success, refetching]

def name : Stage → String
  | idle => "idle"
  | pending => "pending"
  | error => "error"
  | success => "success"
  | refetching => "refetching"

def ofName? (name : String) : Option Stage := all.find? (·.name = name)

end Stage

namespace Remote

variable {α : Type}

instance : Inhabited (Remote α) := ⟨idle⟩

def stage : Remote α → Stage
  | idle => .idle
  | pending => .pending
  | error _ => .error
  | success _ => .success
  | refetching _ => .refetching

/-- The value that is shown, if there is one. -/
def data? : Remote α → Option α
  | success data | refetching data => some data
  | idle | pending | error _ => none

/-- Whether a value is shown. -/
def hasData (r : Remote α) : Bool := r.data?.isSome

/-- Whether an answer is still to come. -/
def isUnresolved : Remote α → Bool
  | idle | pending | refetching _ => true
  | error _ | success _ => false

/-- Whether the latest request has been answered. -/
def isResolved (r : Remote α) : Bool := !r.isUnresolved

/-- Why the latest request failed, if it did. -/
def errorMessage? : Remote α → Option String
  | error message => some message
  | _ => none

end Remote

end WorkspaceControl
