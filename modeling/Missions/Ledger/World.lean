import Missions.Ledger.Program
import Missions.Ledger.Books
import Missions.Ledger.Faults

namespace Missions

structure World where
  books : Books := {}
  faults : Faults := {}

def World.server : Server World := fun c w =>
  match w.faults.strike c with
  | (some answer, faults) => (answer, { w with faults })
  | (none, faults) =>
    let (answer, books) := w.books.perform c
    (.ok answer, { books, faults })

theorem World.run_server (c : Call) (w : World) : (server c).run w =
    match w.faults.strike c with
    | (some answer, faults) => (answer, ⟨w.books, faults⟩)
    | (none, faults) => (.ok (w.books.perform c).1, ⟨(w.books.perform c).2, faults⟩) := rfl

end Missions
