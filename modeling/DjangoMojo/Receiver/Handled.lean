import DjangoMojo.Receiver.Books

/-! # Each transaction keeps the books

What is proved of each transaction is that the database advances soundly, and of
each step of a delivery that it leads to an acknowledgement only over a receipt
with the digest of the delivered event.
-/

namespace DjangoMojo.Receiver

open Foundation Sensor

variable {settings : Settings} {now : Time} {env : Env} {db next : Database}

/-! ### Transactions -/

/-- A row that is created without an Event. -/
theorem Database.create_advances (hsound : Sound settings db) {receipt : Receipt}
    {created : Loaded} (hcreate : db.create receipt = some (created, next))
    (hdigest : ∃ event, receipt.replay.event = some event ∧
      settings.payloadDigest event = receipt.payloadDigest)
    (hcontributed : receipt.caseContributedAt = none) :
    Advances settings db next ∧ next.receipts.get created.pk = some created.row ∧
      created.row = receipt := by
  obtain ⟨hfresh, rfl, rfl⟩ := db.create_some hcreate
  obtain ⟨hprojections, hpublications⟩ := hsound.untouched receipt.key hfresh
  have hadvances := @Sound.created _ _ { db with
      receipts := db.receipts.insert db.nextReceipt receipt, nextReceipt := db.nextReceipt + 1 }
    hsound _ hfresh rfl rfl (fun _ _ => ⟨rfl, rfl⟩)
    { digest := hdigest
      projected := by
        change db.projections receipt.key ≤ 1
        omega
      published := by
        change db.publications receipt.key ≤ 1
        omega
      routed := fun _ => ⟨hprojections, by
        rw [hcontributed]
        exact hpublications⟩
      unpublished := fun _ _ => hpublications }
  refine ⟨hadvances, ?_, rfl⟩
  change (db.receipts.insert db.nextReceipt receipt).get db.nextReceipt = _
  rw [Table.get_insert, if_pos rfl, hsound.absent]
  rfl

/-- A receipt that is created with its Event. -/
theorem Database.createReceipt_advances (hsound : Sound settings db) {delivery : Delivery}
    {created : Loaded} (hcreate : db.createReceipt settings now delivery = some (created, next)) :
    Advances settings db next ∧ next.receipts.get created.pk = some created.row ∧
      created.row.key = delivery.key := by
  unfold createReceipt at hcreate
  set event := eventProjection delivery.apiKey delivery.batch delivery.event
  obtain ⟨hfresh, rfl, rfl⟩ := (db.project delivery.key event).2.create_some hcreate
  obtain ⟨hprojections, hpublications⟩ := hsound.untouched delivery.key hfresh
  set receipt : Receipt := { settings.receipt now delivery "replay_features_v1" none with
    event := some (db.project delivery.key event).1 }
  refine ⟨@Sound.created _ _ _ hsound receipt hfresh rfl rfl
    (LogsOnly.project delivery.key event) ?_, ?_, rfl⟩
  · have hcount : (db.project delivery.key event).2.projections delivery.key = 1 := by
      rw [projections_project, hprojections, if_pos rfl]
    have hnone : (db.project delivery.key event).2.publications delivery.key = 0 := by
      rw [publications_project, hpublications]
    exact
      { digest := ⟨delivery.event, rfl, rfl⟩
        projected := Nat.le_of_eq hcount
        published := Nat.le_of_eq hnone |>.trans (Nat.zero_le 1)
        routed := fun hrouted => nomatch hrouted
        unpublished := fun _ _ => hnone }
  · change (db.receipts.insert db.nextReceipt receipt).get db.nextReceipt = some receipt
    rw [Table.get_insert, if_pos rfl, hsound.absent]
    rfl

theorem Database.contribute_advances (hsound : Sound settings db) {case pk : Nat}
    {outcome : Option Nat × Bool} (hcontribute : db.contribute now case pk = some (outcome, next)) :
    Advances settings db next := by
  obtain ⟨row, hrow, heq⟩ := Option.map_eq_some_iff.mp hcontribute
  have hbooks := hsound.rows pk row hrow
  split at heq
  next =>
    cases heq
    exact .same hsound
  next hnew =>
    have hnone : row.caseContributedAt.isSome = false := by simpa using hnew
    cases hrouted : row.caseRouted with
    | true =>
      -- The contribution of a case-routed receipt is its one publication.
      rw [hrouted] at heq
      cases heq
      obtain ⟨hprojections, hpublications⟩ := hbooks.routed hrouted
      rw [hnone] at hpublications
      refine @Sound.updated _ _ _ hsound _ _ (.contributed now case) hrow rfl rfl ?_ rfl ?_
      · exact @LogsOnly.publish (db.update pk (.contributed now case)) row.key .contribution
      · have hcount : ((db.update pk (.contributed now case)).publish row.key
            .contribution).publications row.key = 1 := by
          simp only [publications_publish, publications_update, hpublications]
          simp
        exact
          { digest := hbooks.digest
            projected := by
              simp [hprojections]
            published := Nat.le_of_eq hcount
            routed := fun _ => ⟨by simp [hprojections], by
              rw [if_pos rfl, hcount]
              rfl⟩
            unpublished := fun hfalse => by
              have htrue : (row.contributed now case).caseRouted = row.caseRouted := rfl
              rw [htrue, hrouted] at hfalse
              cases hfalse }
    | false =>
      rw [hrouted] at heq
      cases heq
      refine @Sound.updated _ _ _ hsound _ _ (.contributed now case) hrow rfl rfl
        (fun _ _ => ⟨rfl, rfl⟩) rfl ?_
      exact
        { digest := hbooks.digest
          projected := hbooks.projected
          published := hbooks.published
          routed := fun htrue => by
            have hsame : (row.contributed now case).caseRouted = row.caseRouted := rfl
            rw [hsame, hrouted] at htrue
            cases htrue
          unpublished := fun _ hstate => hbooks.unpublished hrouted hstate }

/-- The row under a key is not one that was contributed and waits to be published:
`_convert_case_routed` would project its event nevertheless. -/
def Database.Uncontributed (db : Database) (pk : Nat) : Bool :=
  (db.receipts.get pk).all fun row =>
    !(row.caseRouted && row.publishState = .pending) || row.caseContributedAt.isNone

theorem Database.convertCaseRouted_advances (hsound : Sound settings db) {given : Option Event}
    {pk : Nat} {outcome : Conversion} (hcondition : db.Uncontributed pk = true)
    (hconvert : db.convertCaseRouted now given pk = some (outcome, next)) :
    Advances settings db next := by
  obtain ⟨row, hrow, heq⟩ := Option.map_eq_some_iff.mp hconvert
  split at heq
  next =>
    cases heq
    exact .same hsound
  next hready =>
    simp only [Bool.or_eq_true, Bool.not_eq_true', decide_eq_true_eq, not_or, ne_eq,
      not_not, Bool.not_eq_false] at hready
    obtain ⟨hrouted, hstate⟩ := hready
    have hbooks := hsound.rows pk row hrow
    split at heq
    next =>
      cases heq
      refine hsound.quiet fun found hfound => Receipt.dead_quiet now _ ?_
      rw [hrow] at hfound
      cases hfound
      rw [hstate]
      exact nofun
    next payload _ =>
      cases heq
      have hnone : row.caseContributedAt = none := by
        simpa [Uncontributed, hrow, hrouted, hstate] using hcondition
      obtain ⟨hprojections, hpublications⟩ := hbooks.routed hrouted
      rw [hnone] at hpublications
      set event := eventProjection row.apiKey row.batch payload
      refine @Sound.updated _ _ _ hsound _ _ (.converted now (db.project row.key event).1) hrow rfl
        rfl (LogsOnly.project row.key event) rfl ?_
      have hcount : (db.project row.key event).2.projections row.key = 1 := by
        rw [projections_project, hprojections, if_pos rfl]
      have hzero : (db.project row.key event).2.publications row.key = 0 := by
        rw [publications_project, hpublications]
        rfl
      exact
        { digest := hbooks.digest
          projected := Nat.le_of_eq hcount
          published := Nat.le_of_eq hzero |>.trans (Nat.zero_le 1)
          routed := fun htrue => nomatch htrue
          unpublished := fun _ _ => hzero }

theorem Database.publishReceipt_advances (hsound : Sound settings db) {pk : Nat}
    {outcome : Loaded × Bool} (hpublish : db.publishReceipt now pk = some (outcome, next)) :
    Advances settings db next ∧ outcome.1.pk = pk := by
  obtain ⟨row, hrow, heq⟩ := Option.map_eq_some_iff.mp hpublish
  split at heq
  next =>
    cases heq
    exact ⟨.same hsound, rfl⟩
  next hready =>
    simp only [Bool.or_eq_true, decide_eq_true_eq, not_or, Bool.not_eq_true] at hready
    obtain ⟨hstate, hrouted⟩ := hready
    split at heq
    next =>
      split at heq
      next =>
        cases heq
        exact ⟨.same hsound, rfl⟩
      next =>
        cases heq
        refine ⟨hsound.quiet fun found hfound => Receipt.dead_quiet now _ ?_, rfl⟩
        rw [hrow] at hfound
        cases hfound
        exact hstate
    next =>
      cases heq
      have hbooks := hsound.rows pk row hrow
      have hzero : db.publications row.key = 0 := hbooks.unpublished hrouted hstate
      refine ⟨@Sound.updated _ _ _ hsound _ _ (.published now) hrow rfl rfl
        (@LogsOnly.publish (db.update pk (.published now)) row.key .event) rfl ?_, rfl⟩
      have hcount : ((db.update pk (.published now)).publish row.key .event).publications
          row.key = 1 := by
        rw [publications_publish, publications_update, hzero, if_pos rfl]
      exact
        { digest := hbooks.digest
          projected := by
            rw [projections_publish, projections_update]
            exact hbooks.projected
          published := Nat.le_of_eq hcount
          routed := fun htrue => by
            have hsame : (row.published now).caseRouted = row.caseRouted := rfl
            rw [hsame, hrouted] at htrue
            cases htrue
          unpublished := fun _ hpending => absurd rfl hpending }

/-! ### Steps after the acceptance -/

theorem attempt_cases {Counter : Type} (env : Env) (db : Database) (body : Option (Move Counter)) :
    (∃ fault : Fault, attempt env db body = (fault.answer, db)) ∨
      ∃ move, body = some move ∧ attempt env db body = move := by
  unfold attempt
  cases env.fault with
  | some fault => exact .inl ⟨fault, rfl⟩
  | none =>
    cases body with
    | none => exact .inl ⟨.other, rfl⟩
    | some move => exact .inr ⟨move, rfl, rfl⟩

theorem attempt_advances {Counter : Type} (hsound : Sound settings db)
    {body : Option (Move Counter)}
    (hbody : ∀ move, body = some move → Advances settings db move.2) :
    Advances settings db (attempt env db body).2 := by
  rcases attempt_cases env db body with ⟨fault, heq⟩ | ⟨move, hmove, heq⟩
  · rw [heq]
    exact .same hsound
  · rw [heq]
    exact hbody move hmove

namespace HandlePc

def pk : HandlePc → Nat
  | .contribute receipt | .contributionFailed receipt | .mark receipt _ | .convert receipt
  | .publish receipt _ | .publicationFailed receipt | .queue receipt _ _ | .shadow receipt _ =>
    receipt.pk

/-- The step does not convert a receipt that was contributed. -/
def Sparing (db : Database) : HandlePc → Bool
  | .convert receipt => db.Uncontributed receipt.pk
  | _ => true

theorem move_advances (hsound : Sound settings db) {given : Option Event} {pc : HandlePc}
    (hcondition : pc.Sparing db = true) :
    Advances settings db (pc.move settings now env db given).2 := by
  cases pc with
  | contribute receipt =>
    simp only [move]
    split
    next => exact .same hsound
    next =>
      split
      next => exact .same hsound
      next =>
        split
        next => exact .same hsound
        next hcontribute => exact Database.contribute_advances hsound hcontribute
  | contributionFailed receipt =>
    refine attempt_advances hsound fun move hmove => ?_
    cases hmove
    exact hsound.quiet fun row _ => row.attempted_quiet now _
  | mark receipt contributed =>
    refine attempt_advances hsound fun move hmove => ?_
    cases hmove
    exact hsound.quiet fun row _ => row.marked_quiet now
  | convert receipt =>
    refine attempt_advances hsound fun move hmove => ?_
    obtain ⟨⟨outcome, changed⟩, hconvert, rfl⟩ := Option.map_eq_some_iff.mp hmove
    exact Database.convertCaseRouted_advances hsound hcondition hconvert
  | publish receipt caller =>
    simp only [move]
    split
    next hpublish => exact (Database.publishReceipt_advances hsound hpublish).1
    next => exact .same hsound
  | publicationFailed receipt =>
    refine attempt_advances hsound fun move hmove => ?_
    cases hmove
    exact hsound.quiet fun row _ => row.attempted_quiet now _
  | queue receipt caller published =>
    refine attempt_advances hsound fun move hmove => ?_
    obtain ⟨row, hrow, rfl⟩ := Option.map_eq_some_iff.mp hmove
    exact .same hsound
  | shadow receipt status =>
    change Advances settings db (if _ then _ else _)
    split
    next =>
      cases hcontribute : db.contribute now env.case receipt.pk with
      | none => exact .same hsound
      | some outcome => exact Database.contribute_advances hsound hcontribute
    next => exact .same hsound

/-- A call stays with its receipt until it answers. -/
theorem move_pk {given : Option Event} {pc following : HandlePc}
    (hmove : (pc.move settings now env db given).1 = .goto following) : following.pk = pc.pk := by
  have hattempt {body : Option (Move HandlePc)} {receipt : Loaded}
      (hbody : ∀ move, body = some move → ∀ other, move.1 = .goto other → other.pk = receipt.pk)
      (hgoto : (attempt env db body).1 = .goto following) : following.pk = receipt.pk := by
    rcases attempt_cases env db body with ⟨fault, heq⟩ | ⟨move, hsome, heq⟩
    · rw [heq] at hgoto
      cases fault <;> cases hgoto
    · rw [heq] at hgoto
      exact hbody move hsome following hgoto
  cases pc with
  | contribute receipt =>
    simp only [move] at hmove
    split at hmove
    next =>
      cases hmove
      rfl
    next =>
      split at hmove
      next =>
        cases hmove
        rfl
      next =>
        split at hmove
        next =>
          cases hmove
          rfl
        next =>
          cases hmove
          split
          next => rfl
          next => rfl
  | contributionFailed receipt =>
    refine hattempt (fun move hsome other hother => ?_) hmove
    cases hsome
    dsimp only at hother
    split at hother
    next =>
      cases hother
      rfl
    next => cases hother
  | mark receipt contributed =>
    refine hattempt (fun move hsome other hother => ?_) hmove
    cases hsome
    cases hother
  | convert receipt =>
    refine hattempt (fun move hsome other hother => ?_) hmove
    obtain ⟨⟨outcome, changed⟩, hconvert, rfl⟩ := Option.map_eq_some_iff.mp hsome
    cases outcome with
    | duplicate => cases hother
    | lost => cases hother
    | event locked =>
      cases hother
      obtain ⟨row, _, heq⟩ := Option.map_eq_some_iff.mp hconvert
      split at heq
      next => cases heq
      next =>
        split at heq
        next => cases heq
        next =>
          cases heq
          rfl
  | publish receipt caller =>
    simp only [move] at hmove
    split at hmove
    next locked published changed hfault hpublish =>
      obtain ⟨row, _, heq⟩ := Option.map_eq_some_iff.mp hpublish
      have hlocked : locked.pk = receipt.pk := by
        split at heq
        next =>
          cases heq
          rfl
        next =>
          split at heq
          next => split at heq <;> cases heq <;> rfl
          next =>
            cases heq
            rfl
      cases caller with
      | delivery wasPublished =>
        dsimp only at hmove
        split at hmove
        next => cases hmove
        next =>
          cases hmove
          exact hlocked
      | conversion =>
        cases hmove
        exact hlocked
    next =>
      cases hmove
      rfl
  | publicationFailed receipt =>
    refine hattempt (fun move hsome other hother => ?_) hmove
    cases hsome
    cases hother
  | queue receipt caller published =>
    refine hattempt (fun move hsome other hother => ?_) hmove
    obtain ⟨row, _, rfl⟩ := Option.map_eq_some_iff.mp hsome
    dsimp only at hother
    split at hother
    next => cases hother
    next =>
      cases caller with
      | delivery wasPublished =>
        cases hother
        rfl
      | conversion => cases hother
  | shadow receipt status => cases hmove

end HandlePc

end DjangoMojo.Receiver
