import DjangoMojo.Foundation.Trace
import DjangoMojo.Receiver.Handling

/-! # The receiver at work

Any number of `ingest_batch` and `retry_case_routed` calls over one database. An
action opens a call or lets an open one take its next transaction, so a list of
actions is an interleaving. A call may die between any two transactions; the
sensor delivers what it was not answered for again.
-/

namespace DjangoMojo.Receiver

open Foundation Sensor

inductive Task where
  /-- `ingest_batch` at one of its events, with the events after it and the
  results so far. -/
  | ingest (delivery : Delivery) (rest : List Event) (results : List AckResult) (pc : Pc)
  | acked (results : List AckResult)
  /-- `retry_case_routed` at one of the receipts it has read. -/
  | sweep (pc : HandlePc) (rest : List Loaded)
  | ended

namespace Task

def nextEvent (apiKey : Nat) (batch : Batch) (results : List AckResult) : List Event → Task
  | [] => .acked results
  | event :: rest => .ingest ⟨apiKey, batch, event⟩ rest results .create

/-- A receipt that is published by the time it is read needs no transaction. -/
def nextStranded : List Loaded → Task
  | [] => .ended
  | receipt :: rest =>
    match finishCaseRouted receipt none with
    | .goto pc => .sweep pc rest
    | .answer .. => nextStranded rest

end Task

def ackResult (id : String) (status : AckStatus) (reason : String) : AckResult :=
  ⟨id, status, if reason = "" then none else some reason⟩

structure Answer where
  delivery : Delivery
  status : AckStatus

structure System where
  now : Time
  db : Database
  tasks : List Task
  /-- What the events delivered so far were answered, newest first. -/
  answers : List Answer

inductive Action where
  | tick (elapsed : Nat)
  | deliver (apiKey : Nat) (batch : Batch) (events : List Event)
  | sweep
  | advance (thread : Nat) (env : Env)
  | crash (thread : Nat)
  | pruneEvent (receipt : Nat)

namespace System

variable (settings : Settings)

def empty : System := ⟨0, .empty, [], []⟩

def stranded (system : System) : List Loaded :=
  let selected := system.db.receipts.select fun _ row =>
    row.caseRouted && row.publishState = .pending && row.modified < system.now - seconds 60
  ((system.db.receipts.orderedBy Receipt.modified selected).take 100).filterMap fun pk =>
    (system.db.receipts.get pk).map fun row => ⟨pk, row⟩

/-- `ingest_batch` up to its first transaction. -/
def opened (system : System) (apiKey : Nat) (batch : Batch) (events : List Event) : System :=
  if batch.policyRevision.toList.contains '\x00' then
    { system with
      tasks := system.tasks ++ [.acked (events.map fun event =>
        ackResult event.id .rejected "policy_revision contains unstorable text")]
      answers := (events.map fun event => ⟨⟨apiKey, batch, event⟩, .rejected⟩).reverse ++
        system.answers }
  else { system with tasks := system.tasks ++ [.nextEvent apiKey batch [] events] }

def ingested (system : System) (thread : Nat) (delivery : Delivery) (rest : List Event)
    (results : List AckResult) : Move Pc → System
  | (.goto pc, db) =>
    { system with db, tasks := system.tasks.set thread (.ingest delivery rest results pc) }
  | (.answer status reason, db) =>
    { system with
      db
      tasks := system.tasks.set thread (.nextEvent delivery.apiKey delivery.batch
        (results ++ [ackResult delivery.event.id status reason]) rest)
      answers := ⟨delivery, status⟩ :: system.answers }

/-- The state after a move of a sweep, which drops what it is answered. -/
def swept (system : System) (thread : Nat) (rest : List Loaded) : Move HandlePc → System
  | (.goto pc, db) => { system with db, tasks := system.tasks.set thread (.sweep pc rest) }
  | (.answer .., db) => { system with db, tasks := system.tasks.set thread (.nextStranded rest) }

def pruned (system : System) (pk : Nat) : System :=
  { system with
    db := { system.db with
      events := (((system.db.receipts.get pk).bind Receipt.event).toList).foldl Table.delete
        system.db.events
      receipts := system.db.receipts.modify pk fun row => { row with event := none } } }

def step (system : System) : Action → Option System
  | .tick elapsed => some { system with now := system.now + elapsed }
  | .deliver apiKey batch events => some (system.opened apiKey batch events)
  | .sweep => some { system with tasks := system.tasks ++ [.nextStranded system.stranded] }
  | .advance thread env =>
    match system.tasks[thread]? with
    | some (.ingest delivery rest results pc) =>
      some (system.ingested thread delivery rest results
        (pc.move settings system.now env system.db delivery))
    | some (.sweep pc rest) =>
      some (system.swept thread rest (pc.move settings system.now env system.db none))
    | _ => none
  | .crash thread => some { system with tasks := system.tasks.set thread .ended }
  | .pruneEvent pk => some (system.pruned pk)

inductive Step (system : System) : Action → System → Prop where
  | tick (elapsed : Nat) : Step system (.tick elapsed) { system with now := system.now + elapsed }
  | deliver (apiKey : Nat) (batch : Batch) (events : List Event) :
      Step system (.deliver apiKey batch events) (system.opened apiKey batch events)
  | sweep :
      Step system .sweep { system with tasks := system.tasks ++ [.nextStranded system.stranded] }
  | ingest (thread : Nat) (env : Env) (delivery : Delivery) (rest : List Event)
      (results : List AckResult) (pc : Pc)
      (htask : system.tasks[thread]? = some (.ingest delivery rest results pc)) :
      Step system (.advance thread env) (system.ingested thread delivery rest results
        (pc.move settings system.now env system.db delivery))
  | handle (thread : Nat) (env : Env) (pc : HandlePc) (rest : List Loaded)
      (htask : system.tasks[thread]? = some (.sweep pc rest)) :
      Step system (.advance thread env)
        (system.swept thread rest (pc.move settings system.now env system.db none))
  | crash (thread : Nat) :
      Step system (.crash thread) { system with tasks := system.tasks.set thread .ended }
  | prune (pk : Nat) : Step system (.pruneEvent pk) (system.pruned pk)

theorem step_cases {system next : System} {action : Action}
    (hstep : system.step settings action = some next) : Step settings system action next := by
  cases action with
  | tick elapsed =>
    cases hstep
    exact .tick elapsed
  | deliver apiKey batch events =>
    cases hstep
    exact .deliver apiKey batch events
  | sweep =>
    cases hstep
    exact .sweep
  | advance thread env =>
    simp only [step] at hstep
    split at hstep
    next delivery rest results pc htask =>
      cases hstep
      exact .ingest thread env delivery rest results pc htask
    next pc rest htask =>
      cases hstep
      exact .handle thread env pc rest htask
    next => cases hstep
  | crash thread =>
    cases hstep
    exact .crash thread
  | pruneEvent pk =>
    cases hstep
    exact .prune pk

end System

end DjangoMojo.Receiver
