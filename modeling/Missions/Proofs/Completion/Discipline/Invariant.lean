import Missions.Proofs.Completion.Discipline.Marks

/-! What holds from call to call of a run: its snapshots say what its minutes tell, and the record that it is to claim
stands in the books as it was loaded. -/

namespace Missions.Discipline

open Minutes Procedure

variable {may : CompletionError → Prop} {r : Request} {ctx ctx' : Context} {books books' : Books}
variable {entries : List (Minute CompletionError Receipt)} {e : Minute CompletionError Receipt} {notes : List Call}
variable {position : Nat}

/-- The step at a position may have a part in the run of a request: of the closing steps only that for its kind. -/
structure Fits (r : Request) (position : Nat) : Prop where
  regular : position = Advance.position → r.pinned = false
  pinned : position = Closing.position → r.pinned = true

theorem Fits.of_ne (hadvance : position ≠ Advance.position) (hclosing : position ≠ Closing.position) :
    Fits r position := ⟨fun heq => absurd heq hadvance, fun heq => absurd heq hclosing⟩

theorem Fits.of_call (h : Fits r position) (hcall : e.call = .execute position) :
    ∀ position, e.call = .execute position → Fits r position := fun _ hcall' =>
  StepCall.execute.inj (hcall.symm.trans hcall') ▸ h

theorem Fits.advance (hr : r.pinned = false) : Fits r Advance.position :=
  ⟨fun _ => hr, fun heq => absurd heq (by decide)⟩

theorem Fits.closing (hr : r.pinned = true) : Fits r Closing.position :=
  ⟨fun heq => absurd heq (by decide), fun _ => hr⟩

/-- Until a record is claimed, the books show it as it was loaded, and it is in progress. -/
structure AsLoaded (r : Request) (h : CompletionMinutes) (books : Books) : Prop where
  execution : r.pinned = false → Pending h.entries Advance.position → ∀ x p, h.state.execution = some x →
    h.state.participant = some p → x.status = .inProgress ∧ x.participant = p.id ∧
      books.executions.get? x.id = some x ∧ books.participants.get? p.id = some p
  pinned : r.pinned = true → Pending h.entries Closing.position → ∀ i, h.state.pinned = some i →
    i.status = .inProgress ∧ books.instances.get? i.id = some i

structure RunInvariant (r : Request) (h : CompletionMinutes) (books : Books) : Prop extends h.Disciplined where
  request : h.state.request = r
  fits : ∀ position, Attempted h.entries position → Fits r position
  keyed : books.Keyed
  loaded : AsLoaded r h books

structure SameClaims (books books' : Books) : Prop where
  participants : books'.participants = books.participants
  executions : books'.executions = books.executions
  instances : books'.instances = books.instances

namespace AsLoaded

theorem congr (h : AsLoaded r ⟨ctx, entries⟩ books) (hrecords : ctx'.records = ctx.records)
    (hbooks : SameClaims books books') : AsLoaded r ⟨ctx', entries⟩ books' where
  execution hr hpending x p hx hp := by
    rw [hbooks.executions, hbooks.participants]
    exact h.execution hr hpending x p ((congrArg Context.Records.execution hrecords).symm.trans hx)
      ((congrArg Context.Records.participant hrecords).symm.trans hp)
  pinned hr hpending i hi := by
    rw [hbooks.instances]
    exact h.pinned hr hpending i ((congrArg Context.Records.pinned hrecords).symm.trans hi)

theorem append (h : AsLoaded r ⟨ctx, entries⟩ books) (e : Minute CompletionError Receipt) :
    AsLoaded r ⟨ctx, entries ++ [e]⟩ books where
  execution hr hpending := h.execution hr hpending.of_append
  pinned hr hpending := h.pinned hr hpending.of_append

theorem advanced (hr : r.pinned = false) (h : ¬ Pending entries Advance.position) :
    AsLoaded r ⟨ctx, entries⟩ books where
  execution _ hpending := absurd hpending h
  pinned hr' := absurd (hr.symm.trans hr') Bool.false_ne_true

theorem closed (hr : r.pinned = true) (h : ¬ Pending entries Closing.position) : AsLoaded r ⟨ctx, entries⟩ books where
  execution hr' := absurd (hr'.symm.trans hr) Bool.false_ne_true
  pinned _ hpending := absurd hpending h

end AsLoaded

namespace RunInvariant

theorem unmarked (h : RunInvariant r ⟨ctx, entries⟩ books) (hmarked : ctx.Marked [] ctx') (hkeyed : books'.Keyed)
    (hloaded : AsLoaded r ⟨ctx', entries⟩ books') : RunInvariant r ⟨ctx', entries⟩ books' where
  user := hmarked.reward (by decide) ▸ h.user
  guild := hmarked.guildReward (by decide) ▸ h.guild
  closing := hmarked.closing (by decide) ▸ h.closing
  once := h.once
  request := (congrArg Context.Brief.request hmarked.brief).trans h.request
  fits := h.fits
  keyed := hkeyed
  loaded := hloaded

theorem record (h : RunInvariant r ⟨ctx, entries⟩ books)
    (hfits : ∀ position, e.call = .execute position → Fits r position)
    (hrequest : ctx'.request = ctx.request)
    (huser : ctx'.reward.Sound (Mutated (entries ++ [e]) UserReward.position))
    (hguild : ctx'.guildReward.Sound (Mutated (entries ++ [e]) GuildReward.position))
    (hclosing : ctx'.closing.Sound (Mutated (entries ++ [e]) Advance.position)
      (Mutated (entries ++ [e]) Closing.position))
    (hkeyed : books'.Keyed) (hloaded : AsLoaded r ⟨ctx', entries ++ [e]⟩ books') :
    RunInvariant r ⟨ctx', entries ++ [e]⟩ books' := by
  have hfits' : ∀ position, Attempted (entries ++ [e]) position → Fits r position := fun position hattempted =>
    (attempted_append.1 hattempted).elim (h.fits position) (hfits position)
  -- the two closing steps fit requests of different kinds
  have honce : ¬ (Attempted (entries ++ [e]) Advance.position ∧ Attempted (entries ++ [e]) Closing.position) :=
    fun ⟨hadvance, hclosing⟩ =>
      Bool.false_ne_true (((hfits' _ hadvance).regular rfl).symm.trans ((hfits' _ hclosing).pinned rfl))
  exact ⟨⟨huser, hguild, hclosing, honce⟩, hrequest.trans h.request, hfits', hkeyed, hloaded⟩

section

variable {names : List String} (h : RunInvariant r ⟨ctx, entries⟩ books) (hmarked : ctx.Marked names ctx')
include h hmarked

theorem user_append (hnames : ∀ name ∈ UserReward.marks, name ∉ names) (he : ¬ e.Mutates UserReward.position) :
    ctx'.reward.Sound (Mutated (entries ++ [e]) UserReward.position) := by
  rw [hmarked.reward hnames, mutated_append_of_not he]
  exact h.user

theorem guild_append (hnames : ∀ name ∈ GuildReward.marks, name ∉ names) (he : ¬ e.Mutates GuildReward.position) :
    ctx'.guildReward.Sound (Mutated (entries ++ [e]) GuildReward.position) := by
  rw [hmarked.guildReward hnames, mutated_append_of_not he]
  exact h.guild

theorem closing_append (hnames : ∀ name ∈ Advance.closingMarks, name ∉ names) (he : ¬ e.Mutates Advance.position)
    (he' : ¬ e.Mutates Closing.position) : ctx'.closing.Sound (Mutated (entries ++ [e]) Advance.position)
      (Mutated (entries ++ [e]) Closing.position) := by
  rw [hmarked.closing hnames, mutated_append_of_not he, mutated_append_of_not he']
  exact h.closing

end

abbrev keeping : List Nat := [UserReward.position, Advance.position, Closing.position, GuildReward.position]

theorem quiet (h : RunInvariant r ⟨ctx, entries⟩ books)
    (hfits : ∀ position, e.call = .execute position → Fits r position)
    (hquiet : ∀ position ∈ keeping, ¬ e.Mutates position) : RunInvariant r ⟨ctx, entries ++ [e]⟩ books := by
  have hsame : ctx.Marked [] ctx := .refl ctx
  refine h.record hfits rfl ?_ ?_ ?_ h.keyed (h.loaded.append e)
  · exact h.user_append hsame (by decide) (hquiet _ (by decide))
  · exact h.guild_append hsame (by decide) (hquiet _ (by decide))
  · exact h.closing_append hsame (by decide) (hquiet _ (by decide)) (hquiet _ (by decide))

theorem attempt_quiet (h : RunInvariant r ⟨ctx, entries⟩ books) (hfits : Fits r position) {result : CompletionResult}
    {performed : List Call} (hquiet : result.isSuccess = true → performed = []) :
    RunInvariant r ⟨ctx, entries ++ [⟨.execute position, result, performed⟩]⟩ books :=
  h.quiet (fun _ hcall => StepCall.execute.inj hcall ▸ hfits) fun _ _ hmutates =>
    hmutates.performed (hquiet hmutates.succeeded)

theorem not_closed (h : RunInvariant r ⟨ctx, entries⟩ books) (hr : r.pinned = false) :
    ¬ Mutated entries Closing.position :=
  fun hmutated => Bool.false_ne_true (hr.symm.trans ((h.fits _ hmutated.attempted).pinned rfl))

theorem not_advanced (h : RunInvariant r ⟨ctx, entries⟩ books) (hr : r.pinned = true) :
    ¬ Mutated entries Advance.position :=
  fun hmutated => Bool.false_ne_true (((h.fits _ hmutated.attempted).regular rfl).symm.trans hr)

end RunInvariant

/-! ### Calls of steps -/

/-- What an attempt of the step at a position comes to, whatever it reports. -/
def Attempts (r : Request) (entries : List (Minute CompletionError Receipt)) (position : Nat)
    (rejects : CompletionError → Bool) : Except CompletionError Success → Context → Books × List Call → Prop
  | .ok _, ctx, g => ∀ result, result.isSuccess = true →
      RunInvariant r ⟨ctx, entries ++ [⟨.execute position, result, g.2⟩]⟩ g.1
  | .error e, ctx, g => ∀ result, result.isSuccess = false → (rejects e = true → result.isRetryable = false) →
      RunInvariant r ⟨ctx, entries ++ [⟨.execute position, result, g.2⟩]⟩ g.1

section

variable {rejects : CompletionError → Bool}

theorem RunInvariant.failed (h : RunInvariant r ⟨ctx, entries⟩ books) (hfits : Fits r position) {e : CompletionError} :
    Attempts r entries position rejects (.error e) ctx (books, notes) := fun _ hfailed _ =>
  h.attempt_quiet hfits fun hok => absurd (hfailed.symm.trans hok) Bool.false_ne_true

theorem RunInvariant.idle (h : RunInvariant r ⟨ctx, entries⟩ books) (hfits : Fits r position) {success : Success} :
    Attempts r entries position rejects (.ok success) ctx (books, []) := fun _ _ =>
  h.attempt_quiet hfits fun _ => rfl

theorem obeys_execute {doing : String} {body : Procedure Success}
    (h : body.Meets (terms may entries) (Attempts r entries position rejects) ctx (books, [])) :
    ((Minutes.record (.execute position) (settle doing rejects body)).run ⟨ctx, entries⟩).Obeys (protocol may)
      (fun s => RunInvariant r s.2) books := by
  refine obeys_record.2 (obeys_settle.2 (h.mono fun outcome ctx' g hattempt => ?_))
  cases outcome with
  | ok success => exact hattempt _ rfl
  | error e =>
    refine hattempt _ ?_ fun hrejects => ?_
    · split <;> rfl
    · rw [if_pos hrejects]
      rfl

theorem obeys_preserved {c : StepCall} (hc : ∀ position ∈ RunInvariant.keeping, c ≠ .execute position) {doing : String}
    {body : Procedure Success}
    (hbody : Preserves (terms may entries) (fun ctx g => RunInvariant r ⟨ctx, entries⟩ g.1) body)
    (h : RunInvariant r ⟨ctx, entries⟩ books) :
    ((Minutes.record c (settle doing rejects body)).run ⟨ctx, entries⟩).Obeys (protocol may)
      (fun s => RunInvariant r s.2) books := by
  refine obeys_record.2 ((hbody.settle (g := (books, [])) h).mono fun s g hinvariant => ?_)
  refine hinvariant.quiet (fun position hcall => .of_ne ?_ ?_) fun position hposition hmutates =>
    hc position hposition hmutates.call
  · exact fun heq => hc _ (by decide) (heq ▸ hcall)
  · exact fun heq => hc _ (by decide) (heq ▸ hcall)

theorem obeys_compensate {doing : String} {undo : Procedure Success}
    (hundo : Preserves (terms may entries) (fun ctx g => RunInvariant r ⟨ctx, entries⟩ g.1) undo)
    (h : RunInvariant r ⟨ctx, entries⟩ books) :
    ((Minutes.record (.compensate position) (settle doing rejects undo)).run ⟨ctx, entries⟩).Obeys (protocol may)
      (fun s => RunInvariant r s.2) books := obeys_preserved (fun _ _ heq => StepCall.noConfusion heq) hundo h

end

theorem meets_ask {c : Call} (hc : ∀ id, c ≠ .completeExecution id)
    {Q : Except CompletionError c.Answer → Context → Books × List Call → Prop}
    (hdisciplined : (⟨ctx, entries⟩ : CompletionMinutes).Disciplined) (hbefore : ctx.KeepsBefore books c)
    (hfailed : ∀ e, Q (.error e) ctx (books, notes))
    (hperformed : Q (.ok (books.perform c).1) ctx
      ((books.perform c).2, notes ++ if c.method.writes then [c] else [])) :
    Meets (α := no_index _) (terms may entries) (ask c) Q ctx (books, notes) := by
  rw [meets_ask_noting, Procedure.meets_ask]
  refine ⟨⟨hdisciplined, hbefore⟩, (forall_answers hc).2 ⟨hperformed, fun e _ => ?_⟩⟩
  simpa only [Note.performed, List.append_nil] using hfailed e

theorem ask_bind {c : Call} (hc : ∀ id, c ≠ .completeExecution id) {β : Type} {f : c.Answer → Procedure β}
    {Q : Except CompletionError β → Context → Books × List Call → Prop}
    (hdisciplined : (⟨ctx, entries⟩ : CompletionMinutes).Disciplined) (hbefore : ctx.KeepsBefore books c)
    (hfailed : ∀ e, Q (.error e) ctx (books, notes))
    (hperformed : (f (books.perform c).1).Meets (terms may entries) Q ctx
      ((books.perform c).2, notes ++ if c.method.writes then [c] else [])) :
    (ask c >>= f).Meets (terms may entries) Q ctx (books, notes) :=
  meets_bind.2 (meets_ask hc hdisciplined hbefore hfailed hperformed)

/-! ### Steps that keep no snapshots, and compensations -/

/-- The methods that neither claim or write a record nor make a reward. -/
def aside : Method → Bool
  | .currentExperience | .subtractExperience | .guildExperience | .subtractGuildExperience | .createFeed | .deleteFeed
  | .setShared => true
  | _ => false

def plain : Method → Bool
  | .grantExperience | .addGuildExperience | .completeExecution | .completeInstance => false
  | _ => true

theorem plain_of_aside {m : Method} (hm : aside m = true) : plain m = true := by
  cases m <;> first | rfl | cases hm

theorem keepsBefore_of_plain {c : Call} (hc : plain c.method = true) (ctx : Context) (books : Books) :
    ctx.KeepsBefore books c := by
  cases c <;> first | exact trivial | cases hc

theorem sameClaims_of_answers {c : Call} {answer : Except CompletionError c.Answer}
    (h : books.Answers may c answer books') (hc : aside c.method = true) : SameClaims books books' := by
  cases h with
  | failed | claimLost => exact ⟨rfl, rfl, rfl⟩
  | performed =>
    cases c with
    | setShared target shared => cases target <;> exact ⟨rfl, rfl, rfl⟩
    | _ => first | exact ⟨rfl, rfl, rfl⟩ | cases hc

theorem tolerates_aside : Tolerates (terms may entries) (fun ctx g => RunInvariant r ⟨ctx, entries⟩ g.1) aside
    (Context.MarkedOnly []) where
  call h hc := by
    refine ⟨⟨h.toDisciplined, keepsBefore_of_plain (plain_of_aside hc) _ _⟩, fun answer g' hanswer => ?_⟩
    have hloaded := h.loaded.congr rfl (sameClaims_of_answers hanswer.1 hc)
    exact h.unmarked (.refl _) (hanswer.1.keyed h.keyed) hloaded
  change h hmarked := h.unmarked hmarked.toMarked h.keyed (h.loaded.congr hmarked.records ⟨rfl, rfl, rfl⟩)

theorem tolerates_settled (hsettled : ∀ ctx books, AsLoaded r ⟨ctx, entries⟩ books) :
    Tolerates (terms may entries) (fun ctx g => RunInvariant r ⟨ctx, entries⟩ g.1) plain (Context.Marked []) where
  call h hc := ⟨⟨h.toDisciplined, keepsBefore_of_plain hc _ _⟩, fun _ _ hanswer =>
    h.unmarked (.refl _) (hanswer.1.keyed h.keyed) (hsettled _ _)⟩
  change h hmarked := h.unmarked hmarked h.keyed (hsettled _ _)

theorem tolerates_written : Tolerates (terms may entries)
    (fun ctx g => (⟨ctx, entries⟩ : CompletionMinutes).Disciplined ∧ g.2 ≠ []) plain Eq where
  call h hc := by
    refine ⟨⟨h.1, keepsBefore_of_plain hc _ _⟩, fun answer g' hanswer => ⟨h.1, ?_⟩⟩
    rw [hanswer.2]
    exact List.append_ne_nil_of_left_ne_nil h.2 _
  change h heq := heq ▸ h

theorem RunInvariant.loads (h : RunInvariant r ⟨ctx, entries⟩ books) (hrequest : ctx'.request = ctx.request)
    (hsnapshots : ctx'.snapshots = ctx.snapshots) (hloaded : AsLoaded r ⟨ctx', entries⟩ books) :
    RunInvariant r ⟨ctx', entries⟩ books := by
  have hkept {t : SnapshotType} (key : SnapshotKey t) : ctx'.kept key = ctx.kept key := by
    rw [Context.kept, Context.kept, hsnapshots]
  refine ⟨⟨?_, ?_, ?_, h.once⟩, hrequest.trans h.request, h.fits, h.keyed, hloaded⟩
  · simpa only [Context.reward, hkept] using h.user
  · simpa only [Context.guildReward, hkept] using h.guild
  · simpa only [Context.closing, hkept] using h.closing

end Missions.Discipline
