import VgmPlayback.Playlist.Player

/-!
# Chip monitors

A `ChipMonitor` stands in for the chip: it counts the register writes, keeps the rate of the clock, and
reports resets and changes of the rate.
-/

namespace VgmPlayback

structure ChipMonitor where
  writes : Nat := 0
  /-- The rate of the clock in Hz. -/
  clock : UInt32 := 0
deriving DecidableEq, Repr, Inhabited

namespace ChipMonitor

/-- The monitor after an event, and what it reports. -/
def hear (m : ChipMonitor) : ChipEvent → ChipMonitor × List Notice
  | .write _ => ({ m with writes := m.writes + 1 }, [])
  | .reset => (m, [.chipReset])
  | .clock hz => ({ m with clock := hz }, if hz = m.clock then [] else [.chipClock hz])

/-- The monitor after a row of events, and what it reports. -/
def hearAll (m : ChipMonitor) : List ChipEvent → ChipMonitor × List Notice
  | [] => (m, [])
  | e :: es =>
    let (m, notices) := m.hear e
    let (m, later) := m.hearAll es
    (m, notices ++ later)

end ChipMonitor

/-- A register write as it is shown. -/
def RegisterWrite.describe (w : RegisterWrite) : String :=
  "YM2151 0x" ++ Text.hexPadded 2 w.address.toNat ++ " <- 0x" ++ Text.hexPadded 2 w.data.toNat

end VgmPlayback
