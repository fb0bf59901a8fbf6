import Missions.Proofs.Ledger.Protocol
import Missions.Proofs.Ledger.Stores
import Missions.Rehearsal.Disturbance

/-! Books behind collaborators that may fail. A call is performed, or it fails and changes nothing; a claim of an
execution may also be lost, which changes nothing either. Nobody else touches the books. -/

namespace Missions

/-- What may come of a call, and the books afterwards. Failing calls answer errors of the kind `may`. -/
inductive Books.Answers (may : CompletionError → Prop) (books : Books) :
    (c : Call) → Except CompletionError c.Answer → Books → Prop
  | performed (c : Call) : Answers may books c (.ok (books.perform c).1) (books.perform c).2
  | failed (c : Call) {e : CompletionError} (he : may e) : Answers may books c (.error e) books
  | claimLost (id : Int) : Answers may books (.completeExecution id) (.ok false) books

theorem Books.Answers.mono {may may' : CompletionError → Prop} (hmay : ∀ e, may e → may' e) {books books' : Books}
    {c : Call} {answer : Except CompletionError c.Answer} (h : books.Answers may c answer books') :
    books.Answers may' c answer books' := by
  cases h with
  | performed => exact .performed c
  | failed _ he => exact .failed c (hmay _ he)
  | claimLost id => exact .claimLost id

theorem Books.perform_of_not_writes {c : Call} (h : c.method.writes = false) (books : Books) :
    (books.perform c).2 = books := by
  cases c <;> first | rfl | cases h

def Books.protocol (may : CompletionError → Prop) (σ : Type) : Protocol σ Books where
  allowed _ _ _ := True
  answered _ := Books.Answers may

/-- From good states on, a server of books fails only so that nothing changes, with errors of the kind `may`. -/
def Server.FailsCleanly {S : Type} (server : Server S) (may : CompletionError → Prop) (books : S → Books)
    (good : S → Prop) : Prop :=
  ∀ c s, good s →
    (books s).Answers may c ((server c).run s).1 (books ((server c).run s).2) ∧ good ((server c).run s).2

theorem Server.FailsCleanly.mono {S : Type} {server : Server S} {may may' : CompletionError → Prop} {books : S → Books}
    {good : S → Prop} (h : server.FailsCleanly may books good) (hmay : ∀ e, may e → may' e) :
    server.FailsCleanly may' books good := by
  intro c s hs
  obtain ⟨hanswers, hgood⟩ := h c s hs
  exact ⟨hanswers.mono hmay, hgood⟩

theorem Server.FailsCleanly.governs {S : Type} {server : Server S} {may : CompletionError → Prop} {books : S → Books}
    {good : S → Prop} (h : server.FailsCleanly may books good) (σ : Type) :
    (Books.protocol may σ).Governs server books good :=
  fun _ c s hs => h c s hs

/-- What may come of a program that is alone with the books, and the books afterwards. -/
inductive Program.Comes {σ α : Type} (may : CompletionError → Prop) : Program σ α → Books → α → Books → Prop
  | done (books : Books) (a : α) : Comes may (.done a) books a books
  | call {books books' books'' : Books} (here : σ) {c : Call} {next : Except CompletionError c.Answer → Program σ α}
      {answer : Except CompletionError c.Answer} {a : α} (hanswer : books.Answers may c answer books')
      (hnext : Comes may (next answer) books' a books'') : Comes may (.call here c next) books a books''

theorem Program.Obeys.comes {σ α : Type} {may : CompletionError → Prop} {p : Program σ α} {Q : α → Books → Prop}
    {books books' : Books} {a : α} (h : p.Obeys (Books.protocol may σ) Q books) (hcomes : p.Comes may books a books') :
    Q a books' := by
  induction hcomes with
  | done => exact h
  | call here hanswer _ ih => exact ih (h.2 _ _ hanswer)

theorem Server.FailsCleanly.comes {S σ α : Type} {server : Server S} {may : CompletionError → Prop} {books : S → Books}
    {good : S → Prop} (h : server.FailsCleanly may books good) (p : Program σ α) {s : S} (hs : good s) :
    p.Comes may (books s) ((p.serve server).run s).1 (books ((p.serve server).run s).2) := by
  induction p generalizing s with
  | done a => exact .done _ a
  | call here c next ih =>
    obtain ⟨hanswer, hgood⟩ := h c s hs
    exact .call here hanswer (ih _ hgood)

/-! ### Records under their own numbers -/

theorem Books.Answers.keyed {may : CompletionError → Prop} {books books' : Books} {c : Call}
    {answer : Except CompletionError c.Answer} (h : books.Answers may c answer books') (hkeyed : books.Keyed) :
    books'.Keyed := by
  cases h with
  | performed => exact hkeyed.perform c
  | failed | claimLost => exact hkeyed

theorem Program.Comes.keyed {σ α : Type} {may : CompletionError → Prop} {p : Program σ α} {books books' : Books} {a : α}
    (h : p.Comes may books a books') (hkeyed : books.Keyed) : books'.Keyed := by
  induction h with
  | done => exact hkeyed
  | call _ hanswer _ ih => exact ih (hanswer.keyed hkeyed)

theorem Server.FailsCleanly.keyed {S : Type} {server : Server S} {may : CompletionError → Prop} {books : S → Books}
    {good : S → Prop} (h : server.FailsCleanly may books good) :
    server.FailsCleanly may books fun s => good s ∧ (books s).Keyed := by
  rintro c s ⟨hs, hkeyed⟩
  obtain ⟨hanswers, hgood⟩ := h c s hs
  exact ⟨hanswers, hgood, hanswers.keyed hkeyed⟩

/-! ### The world in memory -/

/-- Every error that faults may hand out is of the kind `may`: a collaborator's own, or one that waits in a queue. -/
structure Faults.Hands (f : Faults) (may : CompletionError → Prop) : Prop where
  collaborator : ∀ service message, may (.collaborator service message)
  feeds : ∀ e ∈ f.feedErrors, may e
  flags : ∀ e ∈ f.flagErrors, may e

theorem Faults.hands_any (f : Faults) : f.Hands fun _ => True :=
  ⟨fun _ _ => trivial, fun _ _ => trivial, fun _ _ => trivial⟩

theorem Faults.Hands.strike {f : Faults} {may : CompletionError → Prop} (h : f.Hands may) (books : Books) (c : Call) :
    (f.strike c).2.Hands may ∧ ∀ answer, (f.strike c).1 = some answer → books.Answers may c answer books := by
  have hcollaborator (c : Call) (service message : String) (answer : Except CompletionError c.Answer)
      (hanswer : some (.error (.collaborator service message)) = some answer) : books.Answers may c answer books :=
    Option.some.inj hanswer ▸ .failed c (h.collaborator service message)
  have hqueued (c : Call) (e : CompletionError) (he : may e) (answer : Except CompletionError c.Answer)
      (hanswer : some (.error e) = some answer) : books.Answers may c answer books :=
    Option.some.inj hanswer ▸ .failed c he
  obtain ⟨hhands, hfeeds, hflags⟩ := h
  unfold Faults.strike
  split
  case h_9 => exact ⟨⟨hhands, hfeeds, hflags⟩, nofun⟩
  case h_4 | h_5 =>
    split
    · next e rest hqueue =>
      have hrest : ∀ e' ∈ e :: rest, may e' := by rw [← hqueue]; assumption
      refine ⟨⟨hhands, ?_, ?_⟩, hqueued _ e (hrest e List.mem_cons_self)⟩
      all_goals first | assumption | exact fun e' he' => hrest e' (List.mem_cons_of_mem e he')
    · exact ⟨⟨hhands, hfeeds, hflags⟩, nofun⟩
    · exact ⟨⟨hhands, hfeeds, hflags⟩, hcollaborator _ _ _⟩
  case h_8 id =>
    split
    · exact ⟨⟨hhands, hfeeds, hflags⟩, nofun⟩
    · exact ⟨⟨hhands, hfeeds, hflags⟩, fun answer hanswer => Option.some.inj hanswer ▸ .claimLost id⟩
  all_goals
    split
    · exact ⟨⟨hhands, hfeeds, hflags⟩, nofun⟩
    · exact ⟨⟨hhands, hfeeds, hflags⟩, hcollaborator _ _ _⟩

theorem World.server_failsCleanly (may : CompletionError → Prop) :
    World.server.FailsCleanly may World.books fun w => w.faults.Hands may := by
  intro c w hw
  obtain ⟨hhands, hanswers⟩ := Faults.Hands.strike hw w.books c
  rw [World.run_server]
  generalize w.faults.strike c = struck at hhands hanswers
  obtain ⟨_ | answer, faults⟩ := struck
  · exact ⟨.performed c, hhands⟩
  · exact ⟨hanswers answer rfl, hhands⟩

theorem Faults.strike_empty (c : Call) : ({} : Faults).strike c = (none, {}) := by
  cases c <;> rfl

theorem World.server_unfailing : World.server.FailsCleanly (fun _ => False) World.books fun w => w.faults = {} := by
  intro c w hw
  rw [World.run_server, hw, Faults.strike_empty]
  exact ⟨.performed c, rfl⟩

/-! ### Worlds made from outside -/

theorem Books.Keyed.setExecutionStatus {books : Books} (h : books.Keyed) (id : Int) (status : ExecutionStatus) :
    (books.setExecutionStatus id status).Keyed := by
  rw [Books.setExecutionStatus, Table.modify]
  split
  · next x hx =>
    obtain rfl := h.executions id x hx
    exact h.putExecution { x with status }
  · exact h

theorem Books.Keyed.setInstanceStatus {books : Books} (h : books.Keyed) (id : Int) (status : ExecutionStatus) :
    (books.setInstanceStatus id status).Keyed := by
  rw [Books.setInstanceStatus, Table.modify]
  split
  · next i hi =>
    obtain rfl := h.instances id i hi
    exact h.putInstance { i with status }
  · exact h

theorem World.keyed_disturb {w : World} (h : w.books.Keyed) (d : Disturbance) : (w.disturb d).books.Keyed := by
  cases d with
  | putMission m => exact h.putMission m
  | putParticipant p => exact h.putParticipant p
  | putExecution x => exact h.putExecution x
  | putInstance i => exact h.putInstance i
  | setExecutionStatus id status => exact h.setExecutionStatus id status
  | setInstanceStatus id status => exact h.setInstanceStatus id status
  | _ => exact { h with }

theorem World.keyed_foldl_disturb {w : World} (h : w.books.Keyed) (ds : List Disturbance) :
    (ds.foldl World.disturb w).books.Keyed := by
  induction ds generalizing w with
  | nil => exact h
  | cons d rest ih => exact ih (keyed_disturb h d)

end Missions
