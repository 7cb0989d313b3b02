import Rollout.Agent
import Rollout.Command.Arguments
import Rollout.Command.Output
import Rollout.Config.Directories
import Rollout.Config.Text
import Rollout.Report.Transport

/-!
# Carrying out command lines

`Command.execute` carries out a command line on a `Host`: real files and a real clock, or a model of
them.  All files with deployments are read before the stored state is opened, so a file that cannot
be read leaves everything as it was.

Specification: B.10.
-/

namespace Rollout.Command

structure Host (m : Type → Type) where
  files : Storage.Files m
  now : m Calendar.Instant
  environment : Environment
  tag : String

structure Response where
  exitCode : Nat
  output : String
  errors : String
  deriving DecidableEq, Repr

variable {m : Type → Type} [Monad m] (host : Host m)

/-- Goes on with a result or ends with the messages of an error. -/
def orChain {ε α : Type} (chain : ε → List String) : Except ε α → ExceptT (List String) m α
  | .ok a => pure a
  | .error e => throw (chain e)

def ask {α : Type} (action : m α) : ExceptT (List String) m α := ExceptT.lift action

def readAll (paths : List String) : ExceptT (List String) m (List String) :=
  paths.mapM fun path => do
    orChain (fun e => ["Failed to read deployment document: " ++ path, e.message])
      (← ask (Storage.readText host.files path))

def directory (c : Config) : ExceptT (List String) m String :=
  orChain (fun e => [e.message]) (c.resolvedDirectory host.environment)

def openState (c : Config) : ExceptT (List String) m Store := do
  orChain Agent.OpenError.chain (← ask (Agent.openStore host.files (← directory host c)))

def surroundings (c : Config) (directory : String) : Surroundings m where
  now := host.now
  groups := pure c.groups
  save := Snapshot.save host.files (Agent.snapshotPath directory) host.tag
  apply _ := pure (.ok ())

def work (c : Config) (deployments : List Deployment) : ExceptT (List String) m (List Record) := do
  let store ← openState host c
  let env := surroundings host c (← directory host c)
  let agent := Agent.start c store c.groups (Outbox.empty.attach id)
  let (tickets, agent) ← deployments.foldlM
    (fun (tickets, agent) deployment => do
      let (result, agent) := agent.submit deployment
      return (tickets ++ [← orChain (fun e => [e.message]) result], agent))
    (([] : List Ticket), agent)
  let (done, agent) ← ask (agent.work env)
  let records ← tickets.mapM fun ticket =>
    orChain (fun e => [e.message]) (Agent.settle done ticket)
  let _ ← ask (agent.flush (fun (_ : Publisher) _ => pure (true, [])) agent.outbox.pending)
  return records

def carryOut (c : Config) : Action → ExceptT (List String) m Response
  | .run paths channelName format => do
    let channel ← match Channel.ofInput? channelName with
      | some channel => pure channel
      | none => throw [Channel.unknownMessage channelName]
    let contents ← readAll host paths
    let records ← work host c (contents.map fun content => ⟨channel, .text content⟩)
    let output := match format with
      | .table => recordsTable records
      | .json => recordsJson records
    return ⟨if records.all fun r => r.stage = .succeeded then 0 else 1, output, ""⟩
  | .winners format => do
    let store ← openState host c
    return ⟨0, if format = .table then winnersTable store.inOrder else winnersJson store.inOrder,
      ""⟩
  | .effective format => do
    let store ← openState host c
    return ⟨0, if format = .table then effectiveTable store.effective
      else effectiveJson store.effective, ""⟩

/-- Loads the configuration and carries out what a command line asks for. -/
def invoke (invocation : Invocation) : ExceptT (List String) m Response := do
  let path ← match invocation.config with
    | some path => pure path
    | none => orChain (fun e => [e.message]) host.environment.configPath
  let c ← orChain Config.LoadError.chain (← ask (Config.load host.files path))
  carryOut host c invocation.action

def execute (arguments : List String) : m Response := do
  match Invocation.ofArguments arguments with
  | .error .misuse => return ⟨2, "", usage⟩
  | .error .help => return ⟨0, usage, ""⟩
  | .ok invocation =>
    match ← (invoke host invocation).run with
    | .ok response => return response
    | .error chain => return ⟨1, "", errorText chain⟩

end Rollout.Command
