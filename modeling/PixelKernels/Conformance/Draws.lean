/-
  PixelKernels.Conformance.Draws
  ──────────────────────────────
  **STREAMS OF SAMPLES TO FILL BUFFERS WITH.**

  A harness does not care where its random samples come from: it is handed
  an endless stream of samples that are all valid at its depth.  How such a
  stream is made from a seed is not said here either; a generator is whatever
  makes one at every depth.
-/
import PixelKernels.Sample

namespace PixelKernels

/-- An endless stream of valid samples. -/
abbrev Draws (depth : Depth) := Nat → Fin (depth.max + 1)

/-- The samples of a stream from position `start` on, stored. -/
def Draws.take (s : Storage) {depth : Depth} (draws : Draws depth) (start size : Nat) :
    Outcome (Array (Sample s)) := do
  let samples ← (List.range size).mapM fun i => Sample.ofNat s (draws (start + i)).val
  pure samples.toArray

/-- Makes a stream at every depth from a seed. -/
abbrev Generator := (depth : Depth) → (seed : Nat) → Draws depth

end PixelKernels
