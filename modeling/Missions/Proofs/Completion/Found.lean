import Missions.Proofs.Completion.Admission
import Missions.Proofs.Completion.Known

/-! Of several participants of a user in a mission a collaborator may find any one, and nothing is known of
collaborators whose totals overflow. A completion cannot tell, if nobody takes part twice and every total that it
comes to has 64 bits. -/

namespace Missions

def Fits64 (n : Int) : Prop := Int64.minValue.toInt ≤ n ∧ n ≤ Int64.maxValue.toInt

instance : DecidablePred Fits64 := fun n =>
  inferInstanceAs (Decidable (Int64.minValue.toInt ≤ n ∧ n ≤ Int64.maxValue.toInt))

namespace Books

variable {books books' : Books} {may : CompletionError → Prop}

structure TotalsFit (books : Books) : Prop where
  users : ∀ user, Fits64 (books.userTotal user)
  guilds : ∀ guild, Fits64 (books.guildTotal guild)

theorem TotalsFit.of_stored (husers : ∀ total ∈ books.userTotals.values, Fits64 total)
    (hguilds : ∀ total ∈ books.guildTotals.values, Fits64 total) : books.TotalsFit := by
  have hzero : Fits64 0 := by decide
  constructor
  · intro user
    rw [userTotal]
    cases htotal : books.userTotals.get? user with
    | none => exact hzero
    | some total => exact husers total (Table.mem_values_iff.2 ⟨user, htotal⟩)
  · intro guild
    rw [guildTotal]
    cases htotal : books.guildTotals.get? guild with
    | none => exact hzero
    | some total => exact hguilds total (Table.mem_values_iff.2 ⟨guild, htotal⟩)

/-- What may come of a call, and the books afterwards. A lookup may find any participant of the user in the mission, and
anything may come of a call that makes a total overflow. -/
inductive AnswersInRange (may : CompletionError → Prop) (books : Books) :
    (c : Call) → Except CompletionError c.Answer → Books → Prop
  | answers {c : Call} {answer : Except CompletionError c.Answer} {books' : Books}
      (h : books.Answers may c answer books') : AnswersInRange may books c answer books'
  | found {mission : Int} {user : String} {p : Participant} (h : books.PartOf mission user p) :
      AnswersInRange may books (.findParticipant mission user) (.ok (some p)) books
  | overflowed {c : Call} (h : ¬ (books.perform c).2.TotalsFit) (answer : Except CompletionError c.Answer)
      (books' : Books) : AnswersInRange may books c answer books'

def protocolInRange (may : CompletionError → Prop) (σ : Type) : Protocol σ Books where
  allowed _ _ _ := True
  answered _ := AnswersInRange may

theorem answers_found (hkeyed : books.Keyed) (honce : books.PartsOnce) {mission : Int} {user : String} {p : Participant}
    (h : books.PartOf mission user p) : books.Answers may (.findParticipant mission user) (.ok (some p)) books := by
  have hfound := (participantOf_eq_some_iff hkeyed honce).2 h
  rw [← hfound]
  exact .performed (.findParticipant mission user)

theorem AnswersInRange.answers_of_fits {c : Call} {answer : Except CompletionError c.Answer}
    (h : books.AnswersInRange may c answer books') (hkeyed : books.Keyed) (honce : books.PartsOnce)
    (hfits : (books.perform c).2.TotalsFit) : books.Answers may c answer books' := by
  cases h with
  | answers h => exact h
  | found h => exact answers_found hkeyed honce h
  | overflowed h => exact absurd hfits h

theorem PartsOnce.of_sameFrames (h : books.PartsOnce) (hframes : books.SameFrames books') : books'.PartsOnce := by
  have hpart {mission : Int} {user : String} {p : Participant} (hp : books'.PartOf mission user p) :
      ∃ q, books.PartOf mission user q ∧ q.id = p.id := by
    obtain ⟨hstored, rfl, rfl⟩ := hp
    have hframe := hframes.participants p.id
    rw [hstored, Option.map_some] at hframe
    obtain ⟨q, hq, hframe⟩ := Option.map_eq_some_iff.1 hframe.symm
    have hid : q.frame.id = p.frame.id := congrArg Participant.id hframe
    have hmission : q.frame.mission = p.frame.mission := congrArg Participant.mission hframe
    have huser : q.frame.user = p.frame.user := congrArg Participant.user hframe
    exact ⟨q, ⟨hid ▸ hq, hmission, huser⟩, hid⟩
  intro mission user p q hp hq
  obtain ⟨p', hp', hpid⟩ := hpart hp
  obtain ⟨q', hq', hqid⟩ := hpart hq
  obtain rfl := h mission user p' q' hp' hq'
  have hstored := hp.stored
  rw [← hpid, hqid, hq.stored] at hstored
  exact (Option.some.inj hstored).symm

end Books

/-- From good states on, a server of books whose totals fit fails only so that nothing changes. -/
def Server.FailsCleanlyInRange {S : Type} (server : Server S) (may : CompletionError → Prop) (books : S → Books)
    (good : S → Prop) : Prop :=
  ∀ c s, good s →
    (books s).AnswersInRange may c ((server c).run s).1 (books ((server c).run s).2) ∧ good ((server c).run s).2

theorem Server.FailsCleanly.inRange {S : Type} {server : Server S} {may : CompletionError → Prop} {books : S → Books}
    {good : S → Prop} (h : server.FailsCleanly may books good) : server.FailsCleanlyInRange may books good := by
  intro c s hs
  obtain ⟨hanswers, hgood⟩ := h c s hs
  exact ⟨.answers hanswers, hgood⟩

theorem Server.FailsCleanlyInRange.governs {S : Type} {server : Server S} {may : CompletionError → Prop}
    {books : S → Books} {good : S → Prop} (h : server.FailsCleanlyInRange may books good) (σ : Type) :
    (Books.protocolInRange may σ).Governs server books good :=
  fun _ c s hs => h c s hs

namespace Program

variable {σ α : Type} {may : CompletionError → Prop} {home books : Books} {r : Request}

/-- What holds of the books in the end, whatever fails, holds of them all along: every later call may fail. -/
theorem Obeys.of_failing {I : Books → Prop} {p : Program σ α}
    (h : p.Obeys (Books.protocol may σ) (fun _ b => I b) books)
    {e : CompletionError} (he : may e) : I books := by
  induction p with
  | done a => exact h
  | call here c next ih => exact ih (.error e) (h.2 (.error e) books (.failed c he))

/-- What a completion comes to alone with books that find the first participant, it comes to with all others. -/
theorem Obeys.inRange {p : Program Context α} {Q : α → Books → Prop} {Q' : α → Unit → Prop}
    (h : p.Obeys (Books.protocol may Context) Q books) (hknown : p.Obeys ((home.known r).protocol r) Q' ())
    (hfits : ∀ a b, Q a b → b.TotalsFit) {e : CompletionError} (he : may e) (hhome : home.Keyed)
    (honce : home.PartsOnce) (hkeyed : books.Keyed) (hlasting : home.Lasting books) :
    p.Obeys (Books.protocolInRange may Context) Q books := by
  induction p generalizing books with
  | done a => exact h
  | call here c next ih =>
    refine ⟨trivial, fun answer books' hanswer => ?_⟩
    have hperformed : (books.perform c).2.TotalsFit := by
      have hnext := h.2 _ _ (Books.Answers.performed c)
      exact (hnext.mono hfits).of_failing he
    have hanswer := hanswer.answers_of_fits hkeyed (honce.of_sameFrames hlasting.toSameFrames) hperformed
    have htold := hanswer.tells hlasting hhome hkeyed hknown.1
    have hlasting' := hanswer.lasting hlasting hhome hkeyed hknown.1
    exact ih answer (h.2 answer books' hanswer) (hknown.2 answer () htold) (hanswer.keyed hkeyed) hlasting'

end Program

/-! ### The world in memory -/

/-- What a world in memory makes of a call, whichever participant it finds. -/
inductive World.Serves (w : World) : (c : Call) → Except CompletionError c.Answer × World → Prop
  | same (c : Call) : Serves w c ((World.server c).run w)
  | found {mission : Int} {user : String} {p : Participant} (h : w.books.PartOf mission user p) :
      Serves w (.findParticipant mission user) (.ok (some p), w)

def Server.InMemory (server : Server World) : Prop :=
  ∀ (c : Call) (w : World), w.books.Keyed → w.Serves c ((server c).run w)

theorem World.server_inMemory : World.server.InMemory := fun c _ _ => .same c

theorem World.Serves.eq_server {w : World} {c : Call} {answered : Except CompletionError c.Answer × World}
    (h : w.Serves c answered) (hkeyed : w.books.Keyed) (honce : w.books.PartsOnce) :
    answered = (World.server c).run w := by
  cases h with
  | same => rfl
  | @found mission user p h =>
    have hfound := (Books.participantOf_eq_some_iff hkeyed honce).2 h
    have hasked : w.faults.strike (.findParticipant mission user) = (none, w.faults) := rfl
    rw [World.run_server, hasked, ← hfound]
    rfl

theorem Program.Obeys.serve_inMemory {α : Type} {home : Books} {r : Request} {p : Program Context α}
    {Q : α → Unit → Prop}
    (h : p.Obeys ((home.known r).protocol r) Q ()) {server : Server World} (hserver : server.InMemory)
    (hhome : home.Keyed) (honce : home.PartsOnce) {w : World} (hkeyed : w.books.Keyed)
    (hlasting : home.Lasting w.books) : (p.serve server).run w = (p.serve World.server).run w := by
  induction p generalizing w with
  | done a => rfl
  | call here c next ih =>
    have hsame := (hserver c w hkeyed).eq_server hkeyed (honce.of_sameFrames hlasting.toSameFrames)
    have hserve (server : Server World) : ((Program.call here c next).serve server).run w =
        ((next ((server c).run w).1).serve server).run ((server c).run w).2 := rfl
    have hanswers := (World.server_failsCleanly (fun _ => True) c w w.faults.hands_any).1
    have htold := hanswers.tells hlasting hhome hkeyed h.1
    rw [hserve, hserve, hsame]
    exact ih _ (h.2 _ () htold) (hanswers.keyed hkeyed) (hanswers.lasting hlasting hhome hkeyed h.1)

/-- In memory a completion comes to the same, whichever participants are found, if nobody takes part twice. -/
theorem Operation.serve_complete_inMemory (o : Operation) (r : Request) {server : Server World}
    (hserver : server.InMemory) {w : World} (hkeyed : w.books.Keyed) (honce : w.books.PartsOnce) :
    ((o.complete r).serve server).run w = ((o.complete r).serve World.server).run w := by
  have hknown := (w.books.known (o.effective r)).obeys_complete_known o r
  exact hknown.serve_inMemory hserver hkeyed honce hkeyed (.refl w.books)

end Missions
