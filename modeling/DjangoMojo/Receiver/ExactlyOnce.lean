import DjangoMojo.Receiver.Deliveries
import DjangoMojo.Receiver.Handled

/-! # Exactly-once effect of the receiver

Over all interleavings of deliveries and sweeps, with calls that die between any
two transactions: an event of the wire has one receipt, one incident Event at
most and one publication at most, and an identity that is used for other content
is refused.
-/

namespace DjangoMojo.Receiver

open Foundation Sensor

/-- The statuses that tell the sensor that its event is kept. -/
def acknowledges : AckStatus → Bool
  | .accepted | .duplicate => true
  | .rejected | .retry => false

def Holds (settings : Settings) (db : Database) (delivery : Delivery) (pk : Nat) : Prop :=
  ∃ row, db.receipts.get pk = some row ∧ row.key = delivery.key ∧
    row.payloadDigest = settings.payloadDigest delivery.event

/-- What is true of the receiver at any time when every effect is exactly once. -/
structure ExactlyOnce (settings : Settings) (system : System) : Prop where
  oneReceipt : ∀ key, (system.db.receiptsOf key).length ≤ 1
  oneEvent : ∀ key, system.db.projections key ≤ 1
  onePublication : ∀ key, system.db.publications key ≤ 1
  /-- The digest of a receipt is the digest of the content it was created for. -/
  digest : ∀ pk row, system.db.receipts.get pk = some row →
    ∃ event, row.replay.event = some event ∧ settings.payloadDigest event = row.payloadDigest
  acknowledged : ∀ answer ∈ system.answers, acknowledges answer.status = true →
    ∃ pk, Holds settings system.db answer.delivery pk

/-- A step of a delivery whose identity has a receipt for other content changes
nothing. It refuses the event, or raises, or is the first of two transactions, of
which the second refuses or raises. -/
def RefusesOthers (settings : Settings) (system : System) (action : Action) (next : System) :
    Prop :=
  ∀ thread env delivery rest results pc, action = .advance thread env →
    system.tasks[thread]? = some (.ingest delivery rest results pc) →
    ∀ pk row, system.db.receipts.get pk = some row → row.key = delivery.key →
      row.payloadDigest ≠ settings.payloadDigest delivery.event →
      next.db = system.db ∧
        (next.answers = ⟨delivery, .rejected⟩ :: system.answers ∨
          env.fault.isSome ∧ next.answers = ⟨delivery, .retry⟩ :: system.answers ∨
          pc = .create ∧ next.answers = system.answers)

/-- No sweep and no delivery is about to convert a receipt that is case-routed, not
published and already contributed to its case. -/
def SparesContributed (system : System) (action : Action) (_ : System) : Prop :=
  match action with
  | .advance thread _ =>
    match system.tasks[thread]? with
    | some (.ingest _ _ _ (.handle pc)) | some (.sweep pc _) => pc.Sparing system.db = true
    | _ => True
  | _ => True

instance (system : System) (action : Action) (next : System) :
    Decidable (SparesContributed system action next) := by
  unfold SparesContributed
  cases action with
  | advance thread env => dsimp only; split <;> infer_instance
  | _ => exact instDecidableTrue

/-! ### Steps of a delivery -/

section

variable {settings : Settings} {now : Time} {env : Env} {db next : Database} {delivery : Delivery}

theorem Holds.keeps {pk : Nat} (hkeeps : Keeps db next) (hholds : Holds settings db delivery pk) :
    Holds settings next delivery pk := by
  obtain ⟨row, hrow, hkey, hdigest⟩ := hholds
  obtain ⟨changed, hchanged, hidentity⟩ := hkeeps pk row hrow
  have hpair := congrArg Prod.snd hidentity
  have hsameKey : changed.key = row.key := congrArg Prod.fst hidentity
  have hsameDigest : changed.payloadDigest = row.payloadDigest := congrArg Prod.fst hpair
  exact ⟨changed, hchanged, hsameKey.trans hkey, hsameDigest.trans hdigest⟩

/-- A delivery that goes on after the acceptance has the receipt of its event. -/
def Pc.Holds (settings : Settings) (db : Database) (delivery : Delivery) : Pc → Prop
  | .handle pc => Receiver.Holds settings db delivery pc.pk
  | _ => True

theorem Pc.Holds.keeps {pc : Pc} (hkeeps : Keeps db next) (hholds : pc.Holds settings db delivery) :
    pc.Holds settings next delivery := by
  cases pc with
  | handle pc => exact Receiver.Holds.keeps hkeeps hholds
  | _ => trivial

def Next.Holds (settings : Settings) (db : Database) (delivery : Delivery) : Next Pc → Prop
  | .goto pc => pc.Holds settings db delivery
  | .answer status _ => acknowledges status = true → ∃ pk, Receiver.Holds settings db delivery pk

theorem Fault.answer_holds (fault : Fault) : (fault.answer : Next Pc).Holds settings db delivery := by
  cases fault <;> exact nofun

theorem Pc.afterReceipt_holds {receipt : Loaded} (hrow : db.receipts.get receipt.pk = some receipt.row)
    (hkey : receipt.row.key = delivery.key) :
    (afterReceipt settings delivery receipt).Holds settings db delivery := by
  unfold afterReceipt
  split
  next => exact nofun
  next hdigest =>
    have hholds : Receiver.Holds settings db delivery receipt.pk :=
      ⟨receipt.row, hrow, hkey, not_not.mp hdigest⟩
    split
    next =>
      unfold finishCaseRouted
      split
      next => exact fun _ => ⟨receipt.pk, hholds⟩
      next => split <;> exact hholds
    next => exact hholds

theorem Pc.move_advances {pc : Pc} (hsound : Sound settings db)
    (hholds : pc.Holds settings db delivery)
    (hcondition : ∀ handled, pc = .handle handled → handled.Sparing db = true) :
    Advances settings db (pc.move settings now env db delivery).2 ∧
      (pc.move settings now env db delivery).1.Holds settings
        (pc.move settings now env db delivery).2 delivery := by
  have hattempt (body : Option (Move Pc))
      (hbody : ∀ move, body = some move → Advances settings db move.2 ∧
        move.1.Holds settings move.2 delivery) :
      Advances settings db (attempt env db body).2 ∧
        (attempt env db body).1.Holds settings (attempt env db body).2 delivery := by
    rcases attempt_cases env db body with ⟨fault, heq⟩ | ⟨move, hsome, heq⟩
    · rw [heq]
      exact ⟨.same hsound, fault.answer_holds⟩
    · rw [heq]
      exact hbody move hsome
  cases pc with
  | create =>
    simp only [move]
    split
    next => exact ⟨.same hsound, nofun⟩
    next =>
      refine hattempt _ fun move hmove => ?_
      obtain rfl := Option.some.inj hmove
      split
      next =>
        split
        next created changed hcreate =>
          obtain ⟨hadvances, hrow, hcreated⟩ := Database.create_advances hsound hcreate
            ⟨delivery.event, rfl, rfl⟩ rfl
          rw [hcreated] at hrow
          exact ⟨hadvances, fun _ => ⟨created.pk, _, hrow, rfl, rfl⟩⟩
        next => exact ⟨.same hsound, trivial⟩
      next =>
        split
        next receipt changed hcreate =>
          have hcreated : Advances settings db changed ∧
              changed.receipts.get receipt.pk = some receipt.row ∧
              receipt.row.key = delivery.key := by
            split at hcreate
            next =>
              obtain ⟨hadvances, hrow, heq⟩ := Database.create_advances hsound hcreate
                ⟨delivery.event, rfl, rfl⟩ rfl
              exact ⟨hadvances, hrow, by rw [heq]; rfl⟩
            next => exact Database.createReceipt_advances hsound hcreate
          exact ⟨hcreated.1, afterReceipt_holds hcreated.2.1 hcreated.2.2⟩
        next => exact ⟨.same hsound, trivial⟩
  | terminalize =>
    refine hattempt _ fun move hmove => ?_
    obtain ⟨receipt, hfind, rfl⟩ := Option.map_eq_some_iff.mp hmove
    obtain ⟨hrow, hkey⟩ := db.find_some hfind
    unfold terminalizeMove
    split
    next => exact ⟨.same hsound, nofun⟩
    next hdigest =>
      have hkept : Receiver.Holds settings db delivery receipt.pk :=
        ⟨receipt.row, hrow, hkey, not_not.mp hdigest⟩
      split
      next => exact ⟨.same hsound, fun _ => ⟨receipt.pk, hkept⟩⟩
      next =>
        have hadvances : Advances settings db (db.update receipt.pk (.terminalized now)) :=
          hsound.quiet fun row _ => row.terminalized_quiet now
        exact ⟨hadvances, fun _ => ⟨receipt.pk, hkept.keeps hadvances.keeps⟩⟩
  | existing =>
    refine hattempt _ fun move hmove => ?_
    obtain ⟨receipt, hfind, rfl⟩ := Option.map_eq_some_iff.mp hmove
    obtain ⟨hrow, hkey⟩ := db.find_some hfind
    exact ⟨.same hsound, afterReceipt_holds hrow hkey⟩
  | handle handled =>
    have hadvances : Advances settings db
        (handled.move settings now env db (some delivery.event)).2 :=
      HandlePc.move_advances hsound (hcondition handled rfl)
    have hkept := hholds.keeps hadvances.keeps
    refine ⟨hadvances, ?_⟩
    change ((handled.move settings now env db (some delivery.event)).1.map Pc.handle).Holds
      settings (handled.move settings now env db (some delivery.event)).2 delivery
    cases hmove : (handled.move settings now env db (some delivery.event)).1 with
    | goto following =>
      change Receiver.Holds settings _ delivery following.pk
      rw [HandlePc.move_pk hmove]
      exact hkept
    | answer status reason => exact fun _ => ⟨handled.pk, hkept⟩

theorem Pc.move_refuses {pc : Pc} (hsound : Sound settings db)
    (hholds : pc.Holds settings db delivery) {pk : Nat} {row : Receipt}
    (hrow : db.receipts.get pk = some row) (hkey : row.key = delivery.key)
    (hdigest : row.payloadDigest ≠ settings.payloadDigest delivery.event) :
    (pc.move settings now env db delivery).2 = db ∧
      ((∃ reason, (pc.move settings now env db delivery).1 = .answer .rejected reason) ∨
        (env.fault.isSome = true ∧
          ∃ reason, (pc.move settings now env db delivery).1 = .answer .retry reason) ∨
        (pc = .create ∧
          ∃ second, (pc.move settings now env db delivery).1 = .goto second)) := by
  have hattempt (body : Option (Move Pc))
      (hbody : ∃ move, body = some move ∧ move.2 = db ∧
        ((∃ reason, move.1 = .answer .rejected reason) ∨
          (pc = .create ∧ ∃ second, move.1 = .goto second))) :
      (attempt env db body).2 = db ∧
        ((∃ reason, (attempt env db body).1 = .answer .rejected reason) ∨
          (env.fault.isSome = true ∧
            ∃ reason, (attempt env db body).1 = .answer .retry reason) ∨
          (pc = .create ∧ ∃ second, (attempt env db body).1 = .goto second)) := by
    obtain ⟨move, rfl, hsame, hmove⟩ := hbody
    unfold attempt
    cases hfault : env.fault with
    | some fault =>
      refine ⟨rfl, ?_⟩
      cases fault with
      | storage => exact .inl ⟨_, rfl⟩
      | other => exact .inr (.inl ⟨rfl, _, rfl⟩)
    | none =>
      refine ⟨hsame, ?_⟩
      rcases hmove with hrejected | hsecond
      · exact .inl hrejected
      · exact .inr (.inr hsecond)
  -- The lookup finds the receipt of the other content.
  have hfound : db.find delivery.key = some ⟨pk, row⟩ := by
    obtain ⟨found, hfind⟩ := db.exists_find hrow hkey
    obtain ⟨hget, hsame⟩ := db.find_some hfind
    have hpk : found.pk = pk := hsound.unique _ _ _ _ hget hrow (hsame.trans hkey.symm)
    rw [hpk, hrow] at hget
    have hloaded : found = ⟨pk, row⟩ := by
      cases found
      cases hpk
      cases hget
      rfl
    rw [hfind, hloaded]
  have hrefused {other : Database} {receipt : Receipt} (hsame : other.receipts = db.receipts)
      (hreceipt : receipt.key = delivery.key) : other.create receipt = none := by
    cases hcreate : other.create receipt with
    | none => rfl
    | some created =>
      refine absurd (hkey.trans hreceipt.symm) ((other.create_some hcreate).1 pk row ?_)
      rw [hsame, hrow]
  cases pc with
  | create =>
    rw [move]
    split
    next => exact ⟨rfl, .inl ⟨_, rfl⟩⟩
    next =>
      refine hattempt _ ⟨_, rfl, ?_⟩
      split
      next =>
        have hnone : db.acceptLocalOnly settings now delivery = none := hrefused rfl rfl
        rw [hnone]
        exact ⟨rfl, .inr ⟨rfl, _, rfl⟩⟩
      next =>
        have hnone : (if env.routeNew = true then db.acceptCaseRouted settings now delivery
            else db.createReceipt settings now delivery) = none := by
          split
          next => exact hrefused rfl rfl
          next => exact hrefused rfl rfl
        rw [hnone]
        exact ⟨rfl, .inr ⟨rfl, _, rfl⟩⟩
  | terminalize =>
    refine hattempt _ ⟨_, by rw [hfound]; rfl, ?_⟩
    rw [terminalizeMove, if_pos hdigest]
    exact ⟨rfl, .inl ⟨_, rfl⟩⟩
  | existing =>
    have hrejected : afterReceipt settings delivery ⟨pk, row⟩ =
        .answer .rejected "event id was already used for different evidence" := if_pos hdigest
    exact hattempt _ ⟨_, by rw [hfound]; rfl, rfl, .inl ⟨_, hrejected⟩⟩
  | handle handled =>
    obtain ⟨other, hother, hotherKey, hotherDigest⟩ := hholds
    have hpk := hsound.unique _ _ _ _ hother hrow (hotherKey.trans hkey.symm)
    rw [hpk, hrow] at hother
    cases hother
    exact absurd hotherDigest hdigest

end

/-! ### Runs -/

/-- What every state of a run keeps: the books of the database, and of each open
delivery and each answer that their receipt is there. -/
structure System.Sound (settings : Settings) (system : System) : Prop where
  db : Receiver.Sound settings system.db
  tasks : ∀ delivery rest results pc, .ingest delivery rest results pc ∈ system.tasks →
    pc.Holds settings system.db delivery
  answers : ∀ answer ∈ system.answers, acknowledges answer.status = true →
    ∃ pk, Holds settings system.db answer.delivery pk

namespace System.Sound

variable {settings : Settings} {system next : System}

theorem empty (settings : Settings) : System.empty.Sound settings where
  db := .empty
  tasks := fun _ _ _ _ hmem => nomatch hmem
  answers := fun _ hmem => nomatch hmem

theorem nextEvent_holds {db : Database} {apiKey : Nat} {batch : Batch} {done : List AckResult}
    {events : List Event} {delivery : Delivery} {rest : List Event} {results : List AckResult}
    {pc : Pc} (heq : .ingest delivery rest results pc = Task.nextEvent apiKey batch done events) :
    pc.Holds settings db delivery := by
  cases events with
  | nil => cases heq
  | cons event events =>
    cases heq
    trivial

theorem nextStranded_ne {stranded : List Loaded} {delivery : Delivery} {rest : List Event}
    {results : List AckResult} {pc : Pc} :
    .ingest delivery rest results pc ≠ Task.nextStranded stranded := by
  induction stranded with
  | nil => exact nofun
  | cons receipt stranded ih =>
    rw [Task.nextStranded]
    split
    next => exact nofun
    next => exact ih

/-- The run rule of the receiver: the database advances, and the tasks and answers that
are new hold their receipts. -/
theorem advanced (hsound : system.Sound settings) (hdb : Advances settings system.db next.db)
    (htasks : ∀ delivery rest results pc, .ingest delivery rest results pc ∈ next.tasks →
      .ingest delivery rest results pc ∈ system.tasks ∨ pc.Holds settings next.db delivery)
    (hanswers : ∀ answer ∈ next.answers, answer ∈ system.answers ∨
      (acknowledges answer.status = true → ∃ pk, Holds settings next.db answer.delivery pk)) :
    next.Sound settings where
  db := hdb.sound
  tasks := by
    intro delivery rest results pc hmem
    rcases htasks delivery rest results pc hmem with hold | hholds
    · exact (hsound.tasks delivery rest results pc hold).keeps hdb.keeps
    · exact hholds
  answers := by
    intro answer hmem hstatus
    rcases hanswers answer hmem with hold | hholds
    · obtain ⟨pk, hkept⟩ := hsound.answers answer hold hstatus
      exact ⟨pk, hkept.keeps hdb.keeps⟩
    · exact hholds hstatus

theorem ingested (hsound : system.Sound settings) {thread : Nat} {env : Env} {delivery : Delivery}
    {rest : List Event} {results : List AckResult} {pc : Pc}
    (htask : system.tasks[thread]? = some (.ingest delivery rest results pc))
    (hcondition : ∀ handled, pc = .handle handled → handled.Sparing system.db = true) :
    (system.ingested thread delivery rest results
      (pc.move settings system.now env system.db delivery)).Sound settings := by
  have hholds := hsound.tasks delivery rest results pc (List.mem_of_getElem? htask)
  obtain ⟨hadvances, hnext⟩ :=
    @Pc.move_advances _ system.now env _ _ _ hsound.db hholds hcondition
  cases hmove : pc.move settings system.now env system.db delivery with
  | mk following db =>
    rw [hmove] at hadvances hnext
    cases following with
    | goto pc =>
      refine hsound.advanced hadvances (fun other rest results counter hmem => ?_)
        fun answer hmem => .inl hmem
      rcases List.mem_or_eq_of_mem_set hmem with hold | hnew
      · exact .inl hold
      · cases hnew
        exact .inr hnext
    | answer status reason =>
      refine hsound.advanced hadvances (fun other rest results counter hmem => ?_)
        fun answer hmem => ?_
      · rcases List.mem_or_eq_of_mem_set hmem with hold | hnew
        · exact .inl hold
        · exact .inr (nextEvent_holds hnew)
      · rcases List.mem_cons.mp hmem with rfl | hold
        · exact .inr hnext
        · exact .inl hold

theorem swept (hsound : system.Sound settings) {thread : Nat} {env : Env} {pc : HandlePc}
    {rest : List Loaded} (hcondition : pc.Sparing system.db = true) :
    (system.swept thread rest (pc.move settings system.now env system.db none)).Sound settings := by
  have hadvances : Advances settings system.db
      (pc.move settings system.now env system.db none).2 :=
    HandlePc.move_advances hsound.db hcondition
  cases hmove : pc.move settings system.now env system.db none with
  | mk following db =>
    rw [hmove] at hadvances
    cases following with
    | goto pc =>
      refine hsound.advanced hadvances (fun other rest results counter hmem => ?_)
        fun answer hmem => .inl hmem
      rcases List.mem_or_eq_of_mem_set hmem with hold | hnew
      · exact .inl hold
      · cases hnew
    | answer status reason =>
      refine hsound.advanced hadvances (fun other rest results counter hmem => ?_)
        fun answer hmem => .inl hmem
      rcases List.mem_or_eq_of_mem_set hmem with hold | hnew
      · exact .inl hold
      · exact absurd hnew nextStranded_ne

theorem opened (hsound : system.Sound settings) (apiKey : Nat) (batch : Batch)
    (events : List Event) : (system.opened apiKey batch events).Sound settings := by
  unfold System.opened
  split
  next =>
    refine hsound.advanced (.same hsound.db) (fun delivery rest results pc hmem => ?_)
      fun answer hmem => ?_
    · rcases List.mem_append.mp hmem with hold | hnew
      · exact .inl hold
      · cases List.mem_singleton.mp hnew
    · rcases List.mem_append.mp hmem with hnew | hold
      · obtain ⟨event, _, rfl⟩ := List.mem_map.mp (List.mem_reverse.mp hnew)
        exact .inr nofun
      · exact .inl hold
  next =>
    refine hsound.advanced (.same hsound.db) (fun delivery rest results pc hmem => ?_)
      fun answer hmem => .inl hmem
    rcases List.mem_append.mp hmem with hold | hnew
    · exact .inl hold
    · exact .inr (nextEvent_holds (List.mem_singleton.mp hnew))

theorem pruned (hsound : system.Sound settings) (pk : Nat) : (system.pruned pk).Sound settings := by
  have hquiet : Advances settings system.db
      (system.db.update pk fun row => { row with event := none }) :=
    hsound.db.quiet fun _ _ => ⟨rfl, rfl, rfl, id⟩
  have hadvances : Advances settings system.db (system.pruned pk).db :=
    ⟨⟨hquiet.sound.rows, hquiet.sound.unique, hquiet.sound.below, hquiet.sound.untouched⟩,
      hquiet.keeps⟩
  exact hsound.advanced hadvances (fun _ _ _ _ hmem => .inl hmem) fun _ hmem => .inl hmem

theorem step {action : Action} (hsound : system.Sound settings)
    (hcondition : SparesContributed system action next)
    (hstep : system.step settings action = some next) : next.Sound settings := by
  cases System.step_cases settings hstep with
  | tick elapsed =>
    exact hsound.advanced (.same hsound.db) (fun _ _ _ _ hmem => .inl hmem) fun _ hmem => .inl hmem
  | deliver apiKey batch events => exact hsound.opened apiKey batch events
  | sweep =>
    refine hsound.advanced (.same hsound.db) (fun delivery rest results pc hmem => ?_)
      fun answer hmem => .inl hmem
    rcases List.mem_append.mp hmem with hold | hnew
    · exact .inl hold
    · exact absurd (List.mem_singleton.mp hnew) nextStranded_ne
  | ingest thread env delivery rest results pc htask =>
    refine hsound.ingested htask fun handled heq => ?_
    subst heq
    simpa only [SparesContributed, htask] using hcondition
  | handle thread env pc rest htask =>
    refine hsound.swept ?_
    simpa only [SparesContributed, htask] using hcondition
  | crash thread =>
    refine hsound.advanced (.same hsound.db) (fun delivery rest results pc hmem => ?_)
      fun answer hmem => .inl hmem
    rcases List.mem_or_eq_of_mem_set hmem with hold | hnew
    · exact .inl hold
    · cases hnew
  | prune pk => exact hsound.pruned pk

theorem exactlyOnce (hsound : system.Sound settings) : ExactlyOnce settings system := by
  have hcounts (key : ReceiptKey) :
      system.db.projections key ≤ 1 ∧ system.db.publications key ≤ 1 := by
    by_cases hexists : ∃ pk row, system.db.receipts.get pk = some row ∧ row.key = key
    · obtain ⟨pk, row, hrow, rfl⟩ := hexists
      have hbooks := hsound.db.rows pk row hrow
      exact ⟨hbooks.projected, hbooks.published⟩
    · obtain ⟨hprojections, hpublications⟩ := hsound.db.untouched key fun pk row hrow hkey =>
        hexists ⟨pk, row, hrow, hkey⟩
      omega
  refine ⟨fun key => ?_, fun key => (hcounts key).1, fun key => (hcounts key).2,
    fun pk row hrow => (hsound.db.rows pk row hrow).digest, hsound.answers⟩
  have hnodup : (system.db.receiptsOf key).Nodup := system.db.receipts.nodup.filter _
  match hlist : system.db.receiptsOf key with
  | [] => exact Nat.zero_le 1
  | [_] => exact Nat.le_refl 1
  | first :: second :: rest =>
    have hmem {pk : Nat} (hpk : pk ∈ first :: second :: rest) :
        ∃ row, system.db.receipts.get pk = some row ∧ row.key = key :=
      system.db.mem_receiptsOf.mp (hlist ▸ hpk)
    obtain ⟨row, hrow, hkey⟩ := hmem List.mem_cons_self
    obtain ⟨other, hother, hsame⟩ := hmem (List.mem_cons_of_mem _ List.mem_cons_self)
    have heq := hsound.db.unique _ _ _ _ hrow hother (hkey.trans hsame.symm)
    rw [hlist, heq] at hnodup
    exact absurd List.mem_cons_self (List.nodup_cons.mp hnodup).1

theorem refusesOthers {action : Action} (hsound : system.Sound settings)
    (hstep : system.step settings action = some next) :
    RefusesOthers settings system action next := by
  intro thread env delivery rest results pc haction htask pk row hrow hkey hdigest
  subst haction
  simp only [System.step, htask, Option.some.injEq] at hstep
  subst hstep
  have hholds := hsound.tasks delivery rest results pc (List.mem_of_getElem? htask)
  obtain ⟨hsame, hanswer⟩ :=
    @Pc.move_refuses _ system.now env _ _ _ hsound.db hholds _ _ hrow hkey hdigest
  cases hmove : pc.move settings system.now env system.db delivery with
  | mk following db =>
    rw [hmove] at hsame hanswer
    cases hsame
    rcases hanswer with ⟨reason, rfl⟩ | ⟨hfault, reason, rfl⟩ | ⟨hcreate, second, rfl⟩
    · exact ⟨rfl, .inl rfl⟩
    · exact ⟨rfl, .inr (.inl ⟨hfault, rfl⟩)⟩
    · exact ⟨rfl, .inr (.inr ⟨hcreate, rfl⟩)⟩

end System.Sound

/-- Along every interleaving of deliveries and sweeps in which no contributed receipt is
converted, every effect is exactly once and other content is refused. -/
theorem exactlyOnce_of_sparesContributed (settings : Settings) (actions : List Action)
    (hspares : EachStep (System.step settings) SparesContributed System.empty actions) :
    Always (System.step settings) (ExactlyOnce settings) System.empty actions ∧
      EachStep (System.step settings) (RefusesOthers settings) System.empty actions := by
  have hstart : System.empty.Sound settings := .empty settings
  constructor
  · have hsound : Always (System.step settings) (System.Sound settings) System.empty actions :=
      always_of_eachStep (fun _ _ _ hstate hcondition hstep => hstate.step hcondition hstep)
        hstart hspares
    exact hsound.imp fun _ hstate => hstate.exactlyOnce
  · have hkept : ∀ system action next, System.Sound settings system →
        SparesContributed system action next → System.step settings system action = some next →
        System.Sound settings next ∧ RefusesOthers settings system action next :=
      fun _ _ _ hstate hcondition hstep =>
        ⟨hstate.step hcondition hstep, hstate.refusesOthers hstep⟩
    exact EachStep.of_invariant hkept hstart hspares

/-! ### A run that publishes an event twice -/

def probe : Event where
  id := "5d1c0a7be24f9e8830c6b1d2f4a7968e3b5c1d0f2a4e6987c8b7a6d5e4f30211"
  kind := "web.probe"
  observedAt := "2026-03-02T10:15:00Z"
  firstSeen := "2026-03-02T10:15:00Z"
  lastSeen := "2026-03-02T10:15:00Z"
  severity := .warning
  summary := "GET /wp-login.php"
  count := 1
  attributes := [("path", .str "/wp-login.php"), ("status", .int 404)]
  recommendation := "review"

def probeSettings : Settings where
  payloadDigest := fun _ => "de601443222113afaa35a4aa560270cb53f7e5ee64d41a81a0e30e97093c3e55"

def probeBatch : Batch := ⟨"web-1", 1, "policy-1"⟩

/-- The call dies between the contribution of its receipt and the update that marks
the receipt published. By the time of the sweep the binding no longer resolves. -/
def contributedThenConverted : List Action :=
  [.deliver 7 probeBatch [probe], .advance 0 { routeNew := true },
    .advance 0 { resolves := true, case := 3 }, .crash 0, .tick 61000000, .sweep,
    .advance 1 {}, .advance 1 {}, .advance 1 {}]

theorem contributedThenConverted_publishes_twice :
    ¬ Always (System.step probeSettings) (ExactlyOnce probeSettings) System.empty
      contributedThenConverted :=
  not_always_of_run (fun system => decide (system.db.publications (7, probe.id) ≤ 1))
    (fun _ hstate => decide_eq_true (hstate.onePublication _)) (by decide +kernel)

/-- The sensor delivers again after the crash, and the binding still resolves. -/
def contributedThenDelivered : List Action :=
  [.deliver 7 probeBatch [probe], .advance 0 { routeNew := true },
    .advance 0 { resolves := true, case := 3 }, .crash 0,
    .deliver 7 probeBatch [probe], .advance 1 { routeNew := true }, .advance 1 {},
    .advance 1 { resolves := true, case := 3 }, .advance 1 {}]

theorem contributedThenDelivered_exactlyOnce :
    EachStep (System.step probeSettings) SparesContributed System.empty contributedThenDelivered ∧
      Always (System.step probeSettings) (ExactlyOnce probeSettings) System.empty
        contributedThenDelivered := by
  have hspares : EachStep (System.step probeSettings) SparesContributed System.empty
      contributedThenDelivered := by decide
  exact ⟨hspares, (exactlyOnce_of_sparesContributed probeSettings _ hspares).1⟩

end DjangoMojo.Receiver
