import VgmPlayback.Console.Failure
import VgmPlayback.Console.Table
import VgmPlayback.Playback.Playthrough

/-!
# Track summaries

What header and metadata say about a track, as rows of a table: the general fields, the clocks of the chips
that the track uses, and the texts.
-/

namespace VgmPlayback.Summary

/-- The clock fields with the names of their chips, in the order of the header. -/
def chipClocks : List (String × Field) :=
  [("sn76489", .sn76489Clock), ("ym2413", .ym2413Clock), ("ym2612", .ym2612Clock), ("ym2151", .ym2151Clock),
   ("sega_pcm", .segaPcmClock), ("rf5c68", .rf5c68Clock), ("ym2203", .ym2203Clock), ("ym2608", .ym2608Clock),
   ("ym2610", .ym2610Clock), ("ym3812", .ym3812Clock), ("ym3526", .ym3526Clock), ("y8950", .y8950Clock),
   ("ymf262", .ymf262Clock), ("ymf278b", .ymf278bClock), ("ymf271", .ymf271Clock), ("ymz280b", .ymz280bClock),
   ("rf5c164", .rf5c164Clock), ("pwm", .pwmClock), ("ay8910", .ay8910Clock), ("gb_dmg", .gbDmgClock),
   ("nes_apu", .nesApuClock), ("multipcm", .multipcmClock), ("upd7759", .upd7759Clock),
   ("okim6258", .okim6258Clock), ("okim6295", .okim6295Clock), ("k051649", .k051649Clock),
   ("k054539", .k054539Clock), ("huc6280", .huc6280Clock), ("c140", .c140Clock), ("k053260", .k053260Clock),
   ("pokey", .pokeyClock), ("qsound", .qsoundClock), ("scsp", .scspClock), ("wonderswan", .wonderswanClock),
   ("vsu", .vsuClock), ("saa1099", .saa1099Clock)]

/-- The nearest whole number of milliseconds to a number of samples at 44100 a second.  No number of samples
lies halfway between two. -/
def milliseconds (samples : Nat) : Nat := (samples * 20 + 441) / 882

theorem milliseconds_nearest (samples : Nat) :
    882 * milliseconds samples < 20 * samples + 441 ∧ 20 * samples < 882 * milliseconds samples + 441 := by
  unfold milliseconds
  omega

/-- A number of samples with its time in seconds. -/
def duration (samples : UInt32) : String :=
  let n := samples.toNat
  let seconds := milliseconds n / 1000
  let fraction := toString (milliseconds n % 1000)
  let zeros := String.ofList (List.replicate (3 - fraction.length) '0')
  s!"{n} ({seconds}.{zeros}{fraction} s)"

/-- The rows for the chips with a clock. -/
def chipRows (h : Header) : List (String × String) :=
  let used := chipClocks.filter fun chip => h.get chip.2 ≠ 0
  if used.isEmpty then [("chips", "(none)")]
  else used.map fun (chip, f) =>
    let hz := (h.get f).toNat
    (s!"clock.{chip}", s!"{hz} Hz")

/-- The rows for the metadata. -/
def textRows (g : Gd3) : List (String × String) :=
  if g.isEmpty then [("gd3", "(none)")]
  else
    [("gd3.track_name", g.trackName), ("gd3.game_name", g.gameName), ("gd3.system_name", g.systemName),
     ("gd3.author", g.author), ("gd3.release_date", g.releaseDate)]

/-- The rows that describe a track. -/
def rows (h : Header) (g : Gd3) : List (String × String) :=
  let word (f : Field) : String := "0x" ++ Text.hexPadded 8 (h.get f).toNat
  [("ident valid", toString h.verify), ("version", word .version), ("eof offset", word .eofOffset),
   ("data offset", word .dataOffset), ("loop offset", word .loopOffset),
   ("total samples", duration (h.get .totalSamples)), ("loop samples", duration (h.get .loopSamples)),
   ("rate", toString (h.get .rate).toNat)] ++ chipRows h ++ textRows g

/-- The lines about the track in the file at `path`. -/
def describe (path : String) (bytes : List UInt8) : Except Failure (List String) :=
  match Playthrough.start (.ofBytes bytes) CommandStream.defaultCapacity LoopHead.defaultCapacity with
  | .error e => .error (.unparsed path e)
  | .ok track =>
    match track.loadMetadata with
    | (.error e, _, _) => .error (.track e)
    | (.ok gd3, _, _) => .ok (Table.lines (("Field", "Value") :: ("file", path) :: rows track.header gd3))

end VgmPlayback.Summary
