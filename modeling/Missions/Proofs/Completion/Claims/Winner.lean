import Missions.Proofs.Completion.Claims.Pool
import Missions.Proofs.Completion.Effect

/-! What a run holds is completed, and no other run holds it: the others fail to claim it, and do not save what they
do not hold. -/

namespace Missions

theorem Standing.putBack_foldl_after (turns : List Turn) (g : Standing) :
    (turns.foldl after g).putBack = true ↔ g.putBack = true ∨ ∃ turn ∈ turns, turn.PutsBack := by
  induction turns generalizing g with
  | nil => simp
  | cons turn rest ih => simp [ih, after, or_assoc]

namespace Pool

variable {ι : Type} {pool pool' : Pool ι} {i : ι}

theorem putBack_standing : (pool.standing i).putBack = true ↔ pool.HasPutBack i := by
  rw [standing, Standing.putBack_foldl_after]
  simp [HasPutBack]

theorem Sound.won (h : pool.Sound) (hwon : pool.Won i) :
    ¬ pool.HasPutBack i ∧ ∃ t, (pool.standing i).held = some t ∧ pool.loaded i = some t := by
  obtain ⟨completion, audit, hdone⟩ := hwon
  have hobeys := h.obeys i
  rw [hdone] at hobeys
  obtain ⟨hheld, hkept⟩ := hobeys completion audit rfl
  obtain ⟨t, ht⟩ := Option.isSome_iff_exists.1 hheld
  refine ⟨fun hback => ?_, t, ht, h.loaded i t ht⟩
  cases hkept.symm.trans (putBack_standing.2 hback)

theorem Sound.marked (h : pool.Sound) {here : Context} {c : Call}
    {next : Except CompletionError c.Answer → Program Context _} (hrun : pool.runs i = .call here c next)
    (hmarked : (here.kept Snapshot.targetAfter).isSome) (hback : ¬ pool.HasPutBack i) :
    ∃ t, (pool.standing i).held = some t ∧ here.target = some t := by
  have hobeys := h.obeys i
  rw [hrun] at hobeys
  have hfair := hobeys.1.1
  rcases hfair.marked hmarked with hheld | hputBack
  · obtain ⟨t, ht⟩ := Option.isSome_iff_exists.1 hheld
    exact ⟨t, ht, hfair.shown t ht⟩
  · exact absurd (putBack_standing.1 hputBack) hback

variable [DecidableEq ι]

theorem Won.step (h : pool.Won i) {who : Option ι} (hstep : pool.Step who pool') :
    pool'.Won i ∧ pool'.loaded i = pool.loaded i := by
  cases hstep with
  | outside => exact ⟨h, rfl⟩
  | turn j hrun =>
    obtain ⟨completion, audit, hdone⟩ := h
    have hne : i ≠ j := by
      rintro rfl
      cases hrun.symm.trans hdone
    exact ⟨⟨completion, audit, (runs_play_of_ne hne).trans hdone⟩, loaded_play_of_ne hne⟩

theorem Won.reaches (h : pool.Won i) (hreach : pool.Reaches pool') :
    pool'.Won i ∧ pool'.loaded i = pool.loaded i := by
  induction hreach with
  | refl => exact ⟨h, rfl⟩
  | tail _ hstep ih =>
    obtain ⟨hwon, hloaded⟩ := ih.1.step hstep.choose_spec
    exact ⟨hwon, hloaded.trans ih.2⟩

/-- Of the runs that load a record at most one goes through, and then the record stays completed. It is completed from
the time on when a run has marked it as closed, and until that run puts it back nobody else changes its status. -/
theorem one_winner {books : Books} (hkeyed : books.Keyed) (operation : ι → Operation) (request : ι → Request)
    (hreach : (starting books operation request).Reaches pool) :
    (∀ i j t, pool.Won i → pool.Won j → pool.loaded i = some t → pool.loaded j = some t → i = j) ∧
    (∀ i, pool.Won i → ¬ pool.HasPutBack i ∧ ∃ t, pool.loaded i = some t ∧
      ∀ pool', pool.Reaches pool' → pool'.books.status t = some .completed) ∧
    ∀ i here c next, pool.runs i = .call here c next → (here.kept Snapshot.targetAfter).isSome →
      ¬ pool.HasPutBack i → ∃ t, here.target = some t ∧ pool.books.status t = some .completed ∧
        ∀ who pool', who ≠ some i → pool.Step who pool' → pool'.books.status t = some .completed := by
  have hsound := (sound_starting hkeyed operation request).reaches hreach
  refine ⟨fun i j t hi hj hloaded hloaded' => ?_, fun i hwon => ?_, fun i here c next hrun hmarked hback => ?_⟩
  · obtain ⟨-, s, hs, hloads⟩ := hsound.won hi
    obtain ⟨-, s', hs', hloads'⟩ := hsound.won hj
    obtain rfl := Option.some.inj (hloads.symm.trans hloaded)
    obtain rfl := Option.some.inj (hloads'.symm.trans hloaded')
    exact hsound.apart i j _ hs hs'
  · obtain ⟨hback, t, -, hloaded⟩ := hsound.won hwon
    refine ⟨hback, t, hloaded, fun pool' hreach' => ?_⟩
    obtain ⟨hwon', hloaded'⟩ := hwon.reaches hreach'
    obtain ⟨-, s, hs, hloads⟩ := (hsound.reaches hreach').won hwon'
    obtain rfl := Option.some.inj ((hloads.symm.trans hloaded').trans hloaded)
    exact (hsound.reaches hreach').closed i _ hs
  · obtain ⟨t, ht, htarget⟩ := hsound.marked hrun hmarked hback
    have hclosed := hsound.closed i t ht
    exact ⟨t, htarget, hclosed, fun who pool' hwho hstep => (hsound.status_eq_of_step hstep hwho ht).trans hclosed⟩

def advance (pool : Pool ι) (i : ι) : Pool ι :=
  match pool.runs i with
  | .done _ => pool
  | .call here c next =>
    pool.play i ⟨here, c, .ok (pool.books.perform c).1⟩ (next (.ok (pool.books.perform c).1)) (pool.books.perform c).2

theorem advance_cases (pool : Pool ι) (i : ι) :
    pool.advance i = pool ∨ pool.Step (some i) (pool.advance i) := by
  rw [advance]
  split
  · exact .inl rfl
  · next hrun => exact .inr (.turn i hrun (.performed _))

theorem reaches_foldl_advance (pool : Pool ι) (order : List ι) : pool.Reaches (order.foldl advance pool) := by
  refine List.foldlRecOn order advance .refl fun pool' hreach i _ => ?_
  rcases pool'.advance_cases i with heq | hstep
  · rwa [heq]
  · exact hreach.tail ⟨some i, hstep⟩

end Pool

namespace Fixture

def race : Pool Bool :=
  (List.replicate 20 [false, true]).flatten.foldl Pool.advance
    (.starting hampered.books (fun _ => patient) fun _ => request)

end Fixture

open Fixture in
theorem Pool.one_winner_race :
    race.Won false ∧ ¬ race.Won true ∧ race.books.status (.execution 500) = some .completed := by
  have hloaded : race.loaded false = some (.execution 500) ∧ race.loaded true = some (.execution 500) := by
    decide +kernel
  have hdone : (match race.runs false with
      | .done outcome => outcome.toOption.any (·.1.isOk)
      | .call .. => false) = true := by decide +kernel
  have hwon : race.Won false := by
    rw [Pool.Won]
    generalize race.runs false = run at hdone ⊢
    obtain ⟨i | ⟨e | completion, audit⟩⟩ | _ := run
    · cases hdone
    · cases hdone
    · exact ⟨completion, audit, rfl⟩
    · cases hdone
  have hkeyed : hampered.books.Keyed := World.keyed_foldl_disturb .empty _
  obtain ⟨honce, hstays, -⟩ := Pool.one_winner hkeyed (fun _ => patient)
    (fun _ => request) (Pool.reaches_foldl_advance _ (List.replicate 20 [false, true]).flatten)
  obtain ⟨-, t, ht, hclosed⟩ := hstays false hwon
  obtain rfl := Option.some.inj (ht.symm.trans hloaded.1)
  refine ⟨hwon, fun hwon' => ?_, hclosed _ .refl⟩
  cases honce false true _ hwon hwon' hloaded.1 hloaded.2

end Missions
