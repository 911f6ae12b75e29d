import DjangoMojo.Receiver.Handling

/-! # What the database keeps true of its receipts

A receipt keeps the identity it was created with. The log has at most one
projection and one publication for its event, and tells of a case-routed receipt
exactly whether it was contributed. Each transaction keeps this, except that the
conversion of a receipt that was contributed would let its event be published
once more.
-/

namespace DjangoMojo.Receiver

open Foundation Sensor

/-- What a receipt says of the event that it was created for. -/
def Receipt.identity (row : Receipt) : ReceiptKey × String × Option Event :=
  (row.key, row.payloadDigest, row.replay.event)

/-- A row beside the number of projections and publications of its event. -/
structure RowSound (settings : Settings) (projections publications : Nat) (row : Receipt) :
    Prop where
  digest : ∃ event, row.replay.event = some event ∧
    settings.payloadDigest event = row.payloadDigest
  projected : projections ≤ 1
  published : publications ≤ 1
  routed : row.caseRouted = true →
    projections = 0 ∧ publications = if row.caseContributedAt.isSome then 1 else 0
  unpublished : row.caseRouted = false → row.publishState ≠ .published → publications = 0

structure Sound (settings : Settings) (db : Database) : Prop where
  rows : ∀ pk row, db.receipts.get pk = some row →
    RowSound settings (db.projections row.key) (db.publications row.key) row
  unique : ∀ first second row other, db.receipts.get first = some row →
    db.receipts.get second = some other → row.key = other.key → first = second
  below : ∀ pk row, db.receipts.get pk = some row → pk < db.nextReceipt
  untouched : ∀ key, (∀ pk row, db.receipts.get pk = some row → row.key ≠ key) →
    db.projections key = 0 ∧ db.publications key = 0

/-- Every receipt is still there and has the identity it had. -/
def Keeps (db next : Database) : Prop :=
  ∀ pk row, db.receipts.get pk = some row →
    ∃ changed, next.receipts.get pk = some changed ∧ changed.identity = row.identity

structure Advances (settings : Settings) (db next : Database) : Prop where
  sound : Sound settings next
  keeps : Keeps db next

section

variable {settings : Settings} {db next : Database}

theorem Keeps.refl (db : Database) : Keeps db db := fun _ row hrow => ⟨row, hrow, rfl⟩

theorem Advances.same (hsound : Sound settings db) : Advances settings db db :=
  ⟨hsound, .refl db⟩

theorem Sound.empty : Sound settings Database.empty where
  rows := fun _ _ hrow => nomatch hrow
  unique := fun _ _ _ _ hrow => nomatch hrow
  below := fun _ _ hrow => nomatch hrow
  untouched := fun _ _ => ⟨rfl, rfl⟩

/-- The log of one event is changed, that of the others is not. -/
def LogsOnly (key : ReceiptKey) (db next : Database) : Prop :=
  ∀ other, other ≠ key →
    next.projections other = db.projections other ∧ next.publications other = db.publications other

theorem Sound.absent (hsound : Sound settings db) : db.receipts.get db.nextReceipt = none := by
  cases hget : db.receipts.get db.nextReceipt with
  | none => rfl
  | some row => exact absurd (hsound.below _ _ hget) (Nat.lt_irrefl _)

theorem Sound.created (hsound : Sound settings db) {receipt : Receipt}
    (hfresh : ∀ pk row, db.receipts.get pk = some row → row.key ≠ receipt.key)
    (hreceipts : next.receipts = db.receipts.insert db.nextReceipt receipt)
    (hnext : next.nextReceipt = db.nextReceipt + 1) (hlog : LogsOnly receipt.key db next)
    (hrow : RowSound settings (next.projections receipt.key) (next.publications receipt.key)
      receipt) : Advances settings db next := by
  have habsent := hsound.absent
  have hget (pk : Nat) (row : Receipt) : next.receipts.get pk = some row ↔
      pk = db.nextReceipt ∧ row = receipt ∨ db.receipts.get pk = some row := by
    rw [hreceipts, Table.get_insert, habsent]
    split
    next heq =>
      subst heq
      simp [habsent, eq_comm]
    next hne => simp [hne]
  refine ⟨⟨?_, ?_, ?_, ?_⟩, fun pk row hold => ⟨row, (hget pk row).mpr (.inr hold), rfl⟩⟩
  · intro pk row hfound
    rcases (hget pk row).mp hfound with ⟨_, rfl⟩ | hold
    · exact hrow
    · obtain ⟨hprojections, hpublications⟩ := hlog row.key (hfresh pk row hold)
      rw [hprojections, hpublications]
      exact hsound.rows pk row hold
  · intro first second row other hfirst hsecond hkey
    rcases (hget first row).mp hfirst with ⟨rfl, rfl⟩ | hold
    · rcases (hget second other).mp hsecond with ⟨rfl, _⟩ | hother
      · rfl
      · exact absurd hkey.symm (hfresh second other hother)
    · rcases (hget second other).mp hsecond with ⟨_, rfl⟩ | hother
      · exact absurd hkey (hfresh first row hold)
      · exact hsound.unique first second row other hold hother hkey
  · intro pk row hfound
    rw [hnext]
    rcases (hget pk row).mp hfound with ⟨rfl, _⟩ | hold
    · exact Nat.lt_succ_self _
    · exact Nat.lt_succ_of_lt (hsound.below pk row hold)
  · intro key hnone
    have hne : key ≠ receipt.key := fun heq =>
      hnone db.nextReceipt receipt ((hget _ _).mpr (.inl ⟨rfl, rfl⟩)) heq.symm
    obtain ⟨hprojections, hpublications⟩ := hlog key hne
    rw [hprojections, hpublications]
    exact hsound.untouched key fun pk row hold => hnone pk row ((hget pk row).mpr (.inr hold))

theorem Sound.updated (hsound : Sound settings db) {pk : Nat} {row : Receipt}
    {change : Receipt → Receipt} (hrow : db.receipts.get pk = some row)
    (hreceipts : next.receipts = db.receipts.modify pk change)
    (hnext : next.nextReceipt = db.nextReceipt) (hlog : LogsOnly row.key db next)
    (hidentity : (change row).identity = row.identity)
    (hchanged : RowSound settings (next.projections row.key) (next.publications row.key)
      (change row)) : Advances settings db next := by
  have hkey : (change row).key = row.key := congrArg Prod.fst hidentity
  have hget (other : Nat) (found : Receipt) (hfound : next.receipts.get other = some found) :
      ∃ old, db.receipts.get other = some old ∧ found.key = old.key ∧
        (other = pk ∧ found = change row ∨ other ≠ pk ∧ found = old) := by
    rw [hreceipts, Table.get_modify] at hfound
    split at hfound
    next heq =>
      subst heq
      rw [hrow] at hfound
      cases hfound
      exact ⟨row, hrow, hkey, .inl ⟨rfl, rfl⟩⟩
    next hne => exact ⟨found, hfound, rfl, .inr ⟨hne, rfl⟩⟩
  have hkeeps : Keeps db next := by
    intro other old hold
    rw [hreceipts, Table.get_modify]
    split
    next heq =>
      rw [heq, hrow] at hold
      cases hold
      exact ⟨change row, by rw [heq, hrow]; rfl, hidentity⟩
    next => exact ⟨old, hold, rfl⟩
  refine ⟨⟨?_, ?_, ?_, ?_⟩, hkeeps⟩
  · intro other found hfound
    obtain ⟨old, hold, hsame, ⟨_, rfl⟩ | ⟨hne, rfl⟩⟩ := hget other found hfound
    · rw [hkey]
      exact hchanged
    · have hother : found.key ≠ row.key := fun heq =>
        hne (hsound.unique other pk found row hold hrow heq)
      obtain ⟨hprojections, hpublications⟩ := hlog found.key hother
      rw [hprojections, hpublications]
      exact hsound.rows other found hold
  · intro first second one another hfirst hsecond heq
    obtain ⟨old, hold, hsame, _⟩ := hget first one hfirst
    obtain ⟨older, holder, hsameOther, _⟩ := hget second another hsecond
    exact hsound.unique first second old older hold holder (by rw [← hsame, ← hsameOther, heq])
  · intro other found hfound
    obtain ⟨old, hold, _⟩ := hget other found hfound
    rw [hnext]
    exact hsound.below other old hold
  · intro key hnone
    have hold : ∀ other old, db.receipts.get other = some old → old.key ≠ key := by
      intro other old hold heq
      obtain ⟨changed, hfound, hsame⟩ := hkeeps other old hold
      have hchangedKey : changed.key = old.key := congrArg Prod.fst hsame
      exact hnone other changed hfound (hchangedKey.trans heq)
    have hne : key ≠ row.key := fun heq => hold pk row hrow heq.symm
    obtain ⟨hprojections, hpublications⟩ := hlog key hne
    rw [hprojections, hpublications]
    exact hsound.untouched key hold

/-! ### Changes that the log does not show -/

/-- A change that neither routes nor contributes, and that does not take back a
publication. -/
structure Quiet (row changed : Receipt) : Prop where
  identity : changed.identity = row.identity
  routed : changed.caseRouted = row.caseRouted
  contributed : changed.caseContributedAt = row.caseContributedAt
  published : row.publishState = .published → changed.publishState = .published

theorem RowSound.quiet {projections publications : Nat} {row changed : Receipt}
    (hsound : RowSound settings projections publications row) (hquiet : Quiet row changed) :
    RowSound settings projections publications changed where
  digest := by
    have hpair := congrArg Prod.snd hquiet.identity
    have hdigest : changed.payloadDigest = row.payloadDigest := congrArg Prod.fst hpair
    have hevent : changed.replay.event = row.replay.event := congrArg Prod.snd hpair
    rw [hdigest, hevent]
    exact hsound.digest
  projected := hsound.projected
  published := hsound.published
  routed := by
    rw [hquiet.routed, hquiet.contributed]
    exact hsound.routed
  unpublished := by
    rw [hquiet.routed]
    exact fun hrouted hstate =>
      hsound.unpublished hrouted fun hpublished => hstate (hquiet.published hpublished)

theorem Sound.quiet (hsound : Sound settings db) {pk : Nat} {change : Receipt → Receipt}
    (hquiet : ∀ row, db.receipts.get pk = some row → Quiet row (change row)) :
    Advances settings db (db.update pk change) := by
  cases hrow : db.receipts.get pk with
  | some row =>
    exact hsound.updated hrow rfl rfl (fun _ _ => ⟨rfl, rfl⟩) (hquiet row hrow).identity
      ((hsound.rows pk row hrow).quiet (hquiet row hrow))
  | none =>
    -- An update of no row leaves every row as it is.
    have hget (other : Nat) : (db.update pk change).receipts.get other = db.receipts.get other := by
      rw [Database.update, Table.get_modify]
      split
      next heq => rw [heq, hrow]; rfl
      next => rfl
    refine ⟨⟨?_, ?_, ?_, ?_⟩, fun other row hother => ⟨row, by rw [hget, hother], rfl⟩⟩
    · intro other row hother
      exact hsound.rows other row (by rw [← hget, hother])
    · intro first second row other hfirst hsecond
      exact hsound.unique first second row other (by rw [← hget, hfirst]) (by rw [← hget, hsecond])
    · intro other row hother
      exact hsound.below other row (by rw [← hget, hother])
    · intro key hnone
      exact hsound.untouched key fun other row hother => hnone other row (by rw [hget, hother])

theorem Receipt.terminalized_quiet (now : Time) (row : Receipt) : Quiet row (row.terminalized now) :=
  ⟨rfl, rfl, rfl, fun _ => rfl⟩

theorem Receipt.attempted_quiet (now : Time) (error : String) (row : Receipt) :
    Quiet row (row.attempted now error) :=
  ⟨rfl, rfl, rfl, id⟩

theorem Receipt.marked_quiet (now : Time) (row : Receipt) : Quiet row (row.marked now) := by
  unfold marked
  split
  · exact ⟨rfl, rfl, rfl, id⟩
  · exact ⟨rfl, rfl, rfl, fun _ => rfl⟩

theorem Receipt.dead_quiet (now : Time) (error : String) {row : Receipt}
    (hstate : row.publishState ≠ .published) : Quiet row (row.dead now error) :=
  ⟨rfl, rfl, rfl, fun hpublished => absurd hpublished hstate⟩

/-! ### The log -/

@[simp] theorem Database.projections_publish (key other : ReceiptKey) (through : Publication) :
    (db.publish key through).projections other = db.projections other := by
  simp [Database.publish, Database.projections, Effect.isProjection]

@[simp] theorem Database.publications_publish (key other : ReceiptKey) (through : Publication) :
    (db.publish key through).publications other =
      db.publications other + if key = other then 1 else 0 := by
  simp [Database.publish, Database.publications, Effect.isPublication, List.countP_cons]

@[simp] theorem Database.projections_project (key other : ReceiptKey) (event : IncidentEvent) :
    (db.project key event).2.projections other =
      db.projections other + if key = other then 1 else 0 := by
  simp [Database.project, Database.projections, Effect.isProjection, List.countP_cons]

@[simp] theorem Database.publications_project (key other : ReceiptKey) (event : IncidentEvent) :
    (db.project key event).2.publications other = db.publications other := by
  simp [Database.project, Database.publications, Effect.isPublication]

@[simp] theorem Database.projections_update (key : ReceiptKey) (pk : Nat)
    (change : Receipt → Receipt) : (db.update pk change).projections key = db.projections key := rfl

@[simp] theorem Database.publications_update (key : ReceiptKey) (pk : Nat)
    (change : Receipt → Receipt) : (db.update pk change).publications key = db.publications key :=
  rfl

theorem LogsOnly.publish (key : ReceiptKey) (through : Publication) :
    LogsOnly key db (db.publish key through) := by
  intro other hother
  simp [hother.symm]

theorem LogsOnly.project (key : ReceiptKey) (event : IncidentEvent) :
    LogsOnly key db (db.project key event).2 := by
  intro other hother
  simp [hother.symm]

end

end DjangoMojo.Receiver
