import Mathlib.Logic.Function.Basic
import Mathlib.Logic.Relation
import Missions.Proofs.Completion.Claims.Answering
import Missions.Proofs.Completion.Claims.Holding

namespace Missions

/-- Completions over one set of books. Each run goes on from the answers to its calls, and its turns are kept. -/
structure Pool (ι : Type) where
  books : Books
  runs : ι → Program Context (Except Interruption (Except CompletionError Completion × AuditLog))
  turns : ι → List Turn

namespace Pool

section Definitions

variable {ι : Type}

/-- Runs that have not begun, each with its own settings and request. -/
def starting (books : Books) (operation : ι → Operation) (request : ι → Request) : Pool ι where
  books := books
  runs i := (operation i).complete (request i)
  turns _ := []

/-- The record that a run has loaded, as its last call showed it. -/
def loaded (pool : Pool ι) (i : ι) : Option Target := (pool.turns i).getLast?.bind (·.here.target)

def Won (pool : Pool ι) (i : ι) : Prop := ∃ completion audit, pool.runs i = .done (.ok (.ok completion, audit))

/-- The run has put back a record that it had marked as closed. -/
def HasPutBack (pool : Pool ι) (i : ι) : Prop := ∃ turn ∈ pool.turns i, turn.PutsBack

def standing (pool : Pool ι) (i : ι) : Standing := (pool.turns i).foldl Standing.after {}

/-- Every run keeps to its word, and what the runs hold is completed and held by one of them only. -/
structure Sound (pool : Pool ι) : Prop where
  keyed : pool.books.Keyed
  obeys : ∀ i, (pool.runs i).Obeys Standing.protocol Standing.Final (pool.standing i)
  loaded : ∀ i t, (pool.standing i).held = some t → pool.loaded i = some t
  closed : ∀ i t, (pool.standing i).held = some t → pool.books.status t = some .completed
  apart : ∀ i j t, (pool.standing i).held = some t → (pool.standing j).held = some t → i = j

theorem sound_starting {books : Books} (hkeyed : books.Keyed) (operation : ι → Operation) (request : ι → Request) :
    (starting books operation request).Sound where
  keyed := hkeyed
  obeys i := Completion.obeys_complete_claims (operation i) (request i)
  loaded _ _ h := nomatch h
  closed _ _ h := nomatch h
  apart _ _ _ h := nomatch h

variable [DecidableEq ι]

def play (pool : Pool ι) (i : ι) (turn : Turn)
    (next : Program Context (Except Interruption (Except CompletionError Completion × AuditLog))) (books : Books) :
    Pool ι where
  books := books
  runs := Function.update pool.runs i next
  turns := Function.update pool.turns i (pool.turns i ++ [turn])

/-- A run makes its next call, or somebody else changes the books without touching executions or instances. -/
inductive Step (pool : Pool ι) : Option ι → Pool ι → Prop
  | turn (i : ι) {here : Context} {c : Call} {next : Except CompletionError c.Answer → Program Context _}
      {answer : Except CompletionError c.Answer} {books : Books} (hrun : pool.runs i = .call here c next)
      (hanswer : pool.books.Answers (fun _ => True) c answer books) :
      Step pool (some i) (pool.play i ⟨here, c, answer⟩ (next answer) books)
  | outside {books : Books} (hkeyed : books.Keyed) (hexecutions : books.executions = pool.books.executions)
      (hinstances : books.instances = pool.books.instances) : Step pool none { pool with books }

def Reaches : Pool ι → Pool ι → Prop := Relation.ReflTransGen fun pool pool' => ∃ who, pool.Step who pool'

end Definitions

variable {ι : Type} [DecidableEq ι] {pool pool' : Pool ι} {i k : ι} {turn : Turn} {books : Books}
variable {next : Program Context (Except Interruption (Except CompletionError Completion × AuditLog))}

/-! ### What a turn does to a run -/

@[simp] theorem runs_play_self : (pool.play i turn next books).runs i = next := Function.update_self ..

@[simp] theorem runs_play_of_ne (h : k ≠ i) : (pool.play i turn next books).runs k = pool.runs k :=
  Function.update_of_ne h ..

@[simp] theorem turns_play_self : (pool.play i turn next books).turns i = pool.turns i ++ [turn] :=
  Function.update_self ..

@[simp] theorem turns_play_of_ne (h : k ≠ i) : (pool.play i turn next books).turns k = pool.turns k :=
  Function.update_of_ne h ..

@[simp] theorem loaded_play_self : (pool.play i turn next books).loaded i = turn.here.target := by
  simp [loaded]

@[simp] theorem loaded_play_of_ne (h : k ≠ i) : (pool.play i turn next books).loaded k = pool.loaded k := by
  simp [loaded, h]

@[simp] theorem standing_play_self : (pool.play i turn next books).standing i = (pool.standing i).after turn := by
  simp [standing]

@[simp] theorem standing_play_of_ne (h : k ≠ i) : (pool.play i turn next books).standing k = pool.standing k := by
  simp [standing, h]

theorem held_play {t : Target} (ht : ((pool.play i turn next books).standing k).held = some t) :
    (k = i ∧ Turn.claims turn.call = some t ∧ Turn.succeeds turn.call turn.answer = true) ∨
      ((pool.standing k).held = some t ∧ (k = i → Turn.succeeds turn.call turn.answer = true →
        Turn.claims turn.call = none ∧ Turn.saves turn.call = none)) := by
  by_cases hk : k = i
  · subst hk
    rw [standing_play_self] at ht
    rcases Standing.held_after ht with hclaim | ⟨ht, hkept⟩
    · exact .inl ⟨rfl, hclaim⟩
    · exact .inr ⟨ht, fun _ => hkept⟩
  · rw [standing_play_of_ne hk] at ht
    exact .inr ⟨ht, fun heq => absurd heq hk⟩

/-! ### The invariant -/

theorem Sound.status_eq_of_step (h : pool.Sound) {who : Option ι} (hstep : pool.Step who pool') (hwho : who ≠ some i)
    {t : Target} (ht : (pool.standing i).held = some t) : pool'.books.status t = pool.books.status t := by
  cases hstep with
  | outside _ hexecutions hinstances => cases t <;> simp only [Books.status, hexecutions, hinstances]
  | turn j hrun hanswer =>
    have hobeys := h.obeys j
    rw [hrun] at hobeys
    obtain ⟨⟨-, -, hsaves⟩, -⟩ := hobeys
    refine hanswer.status_eq h.keyed (fun hclaims => ?_) fun hsaved => ?_
    · refine Bool.eq_false_iff.2 fun hok => ?_
      have hopen := (hanswer.status_of_claim h.keyed hclaims hok).1
      cases hopen.symm.trans (h.closed i t ht)
    · exact absurd (congrArg some (h.apart j i t (hsaves t hsaved) ht)) hwho

theorem Sound.step (h : pool.Sound) {who : Option ι} (hstep : pool.Step who pool') : pool'.Sound := by
  cases hstep with
  | outside hkeyed hexecutions hinstances =>
    refine ⟨hkeyed, h.obeys, h.loaded, fun k t ht => ?_, h.apart⟩
    exact (h.status_eq_of_step (.outside hkeyed hexecutions hinstances) nofun ht).trans (h.closed k t ht)
  | @turn i here c next answer books hrun hanswer =>
    have hobeys := h.obeys i
    rw [hrun] at hobeys
    obtain ⟨⟨hfair, hclaims, hsaves⟩, hnext⟩ := hobeys
    -- a claim that holds finds a record that no run holds
    have hfree {t : Target} (hclaim : Turn.claims c = some t) (hok : Turn.succeeds c answer = true) (k : ι) :
        (pool.standing k).held ≠ some t := fun ht =>
      nomatch (hanswer.status_of_claim h.keyed hclaim hok).1.symm.trans (h.closed k t ht)
    refine ⟨hanswer.keyed h.keyed, fun k => ?_, fun k t ht => ?_, fun k t ht => ?_, fun k l t hk hl => ?_⟩
    · by_cases hk : k = i
      · subst hk
        rw [runs_play_self, standing_play_self]
        exact hnext answer _ ⟨hanswer.truthful h.keyed, rfl⟩
      · rw [runs_play_of_ne hk, standing_play_of_ne hk]
        exact h.obeys k
    · by_cases hk : k = i
      · subst hk
        rw [loaded_play_self]
        rcases held_play ht with ⟨-, hclaim, -⟩ | ⟨ht, -⟩
        · exact hclaims t hclaim
        · exact hfair.shown t ht
      · rw [standing_play_of_ne hk] at ht
        rw [loaded_play_of_ne hk]
        exact h.loaded k t ht
    · rcases held_play ht with ⟨-, hclaim, hok⟩ | ⟨ht, hkept⟩
      · exact (hanswer.status_of_claim h.keyed hclaim hok).2
      · refine (hanswer.status_eq h.keyed (fun hclaim => ?_) fun hsave => ?_).trans (h.closed k t ht)
        · exact Bool.eq_false_iff.2 fun hok => hfree hclaim hok k ht
        · refine Bool.eq_false_iff.2 fun hok => ?_
          have hunsaved := (hkept (h.apart k i t ht (hsaves t hsave)) hok).2
          cases hunsaved.symm.trans hsave
    · rcases held_play hk with ⟨hki, hclaim, hok⟩ | ⟨hk, -⟩
      · rcases held_play hl with ⟨hli, -⟩ | ⟨hl, -⟩
        · exact hki.trans hli.symm
        · exact absurd hl (hfree hclaim hok l)
      · rcases held_play hl with ⟨-, hclaim, hok⟩ | ⟨hl, -⟩
        · exact absurd hk (hfree hclaim hok k)
        · exact h.apart k l t hk hl

theorem Sound.reaches (h : pool.Sound) (hreach : pool.Reaches pool') : pool'.Sound := by
  induction hreach with
  | refl => exact h
  | tail _ hstep ih => exact ih.step hstep.choose_spec

end Pool

end Missions
