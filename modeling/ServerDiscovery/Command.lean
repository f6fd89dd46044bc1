import ServerDiscovery.Survey.Settings

/-! What a command line asks for: one task, and options that stand anywhere between its words. -/

namespace ServerDiscovery

inductive Command.Task where
  | count
  | list
  | info (target : String)
  | all
  | serve
  deriving DecidableEq, Repr

structure Command.Options where
  masters : List String := []
  survey : Survey.Settings := {}
  host : String := "127.0.0.1"
  masterPort : Nat := masterPort.toNat
  gamePort : Nat := gamePort.toNat
  servers : Nat := 4

structure Command where
  task : Command.Task
  options : Command.Options

namespace Command

def usage : String :=
  "\n".intercalate
    ["usage: discovery count | list | info ADDRESS | all | serve",
      "  -m, --master ADDRESS    a master server to ask; may be repeated",
      "  --master-timeout MS     time for a question to a master server",
      "  --server-timeout MS     time for a question to a game server",
      "  -r, --retries N         more passes over servers that did not answer",
      "  -w, --workers N         servers asked at a time",
      "  -H, --host IP           where serve listens",
      "  --master-port PORT      where its master server listens",
      "  --game-port PORT        where its first game server listens",
      "  -n, --servers N         how many game servers it runs"]

def number (value : String) : Except String Nat :=
  match value.toNat? with
  | some n => .ok n
  | none => .error ("not a number: " ++ value)

def Options.set (o : Options) (name value : String) : Except String Options := do
  match name with
  | "-m" | "--master" => return { o with masters := o.masters ++ [value] }
  | "--master-timeout" => return { o with survey.masterTimeout := ← number value }
  | "--server-timeout" => return { o with survey.serverTimeout := ← number value }
  | "-r" | "--retries" => return { o with survey.retryBudget := ← number value }
  | "-w" | "--workers" => return { o with survey.maxWorkers := some (← number value) }
  | "-H" | "--host" => return { o with host := value }
  | "--master-port" => return { o with masterPort := ← number value }
  | "--game-port" => return { o with gamePort := ← number value }
  | "-n" | "--servers" => return { o with servers := ← number value }
  | _ => throw ("unknown option " ++ name)

def Options.read : Options → List String → Except String (Options × List String)
  | o, [] => .ok (o, [])
  | o, word :: rest =>
    if word.startsWith "-" then
      match rest with
      | [] => .error ("no value for " ++ word)
      | value :: rest => do read (← o.set word value) rest
    else do
      let (o, words) ← read o rest
      return (o, word :: words)

def parse (args : List String) : Except String Command := do
  let (options, words) ← Options.read {} args
  match words with
  | ["count"] => return ⟨.count, options⟩
  | ["list"] => return ⟨.list, options⟩
  | ["info", target] => return ⟨.info target, options⟩
  | ["all"] => return ⟨.all, options⟩
  | ["serve"] => return ⟨.serve, options⟩
  | _ => throw usage

def Options.settings (o : Options) : Survey.Settings :=
  if o.masters = [] then o.survey else { o.survey with masters := o.masters }

end Command
end ServerDiscovery
