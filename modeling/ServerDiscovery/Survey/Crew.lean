import ServerDiscovery.Survey.Outcome

/-! Workers that take addresses off one queue, query each, and put what they learn together. An
address that fails is passed over; a worker ends when the queue is empty or its query is
cancelled. -/

namespace ServerDiscovery.Survey

open Client

structure Crew (ι ρ : Type) where
  queue : List ι
  found : List ρ
  /-- How workers ended, in the order in which they did. -/
  endings : List (Except Failure Unit)

namespace Crew

variable {ι ρ : Type}

def start (queue : List ι) : Crew ι ρ := ⟨queue, [], []⟩

def pull (c : Crew ι ρ) : Option (ι × Crew ι ρ) :=
  match c.queue with
  | [] => none
  | job :: queue => some (job, { c with queue })

/-- Puts in the result of a query; an error ends the worker. -/
def report (c : Crew ι ρ) (result : Except Failure ρ) : Except Failure (Crew ι ρ) :=
  match tolerate result with
  | .ok (some r) => .ok { c with found := c.found ++ [r] }
  | .ok none => .ok c
  | .error f => .error f

def close (c : Crew ι ρ) (ending : Except Failure Unit) : Crew ι ρ :=
  { c with endings := c.endings ++ [ending] }

def hasFailed (c : Crew ι ρ) : Bool :=
  c.endings.any fun e => !e.isOk

/-- What the workers found, unless one ended with an error. -/
def result (c : Crew ι ρ) : Except Failure (List ρ) :=
  (fun _ => c.found) <$> c.endings.mapM id

end Crew
end ServerDiscovery.Survey
