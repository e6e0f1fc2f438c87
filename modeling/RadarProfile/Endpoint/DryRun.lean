import RadarProfile.Endpoint.Dispatch

set_option autoImplicit false

/-! # The dry run

An endpoint without a sensor: it accepts every command by echoing it with a marker on the
next line, and counts what it was sent. -/

namespace RadarProfile.DryRun

/-- The endpoint that answers with `marker`. Its state is the number of commands sent. -/
def endpoint (marker : Text) : Endpoint Nat where
  send sent command := ⟨.ok (command ++ '\n' :: marker), [], sent + 1⟩
  awaitReady _ _ := .atOnce

end RadarProfile.DryRun
