import Goodmoneying.Library.Gaps
import Goodmoneying.Program.RealtimeSessions

/-!
# Missing ranges of a backfill

`_missing_source_candle_ranges` of `collector.py`: a scan from the beginning of a job by one minute
that collects the ranges without stored candles, which are fetched. `candles` of
`postgres_repository.py` gives it the minute candles of the range.
-/

namespace Goodmoneying.Program

open Library

/-- The starts of `candles(instrument_id, "1m", start_at, end_at)`; `stored` are the starts of the
stored minute candles of the instrument. -/
def candleStarts (stored : List Instant) (startAt endAt : Instant) : List Instant :=
  stored.filter fun candleStartAt => decide (startAt ≤ candleStartAt ∧ candleStartAt < endAt)

/-- `_missing_source_candle_ranges`; `current` goes through `minuteStarts`. -/
def missingSourceCandleRanges (stored : List Instant) (startAt endAt : Instant) :
    List (Instant × Instant) :=
  let existingStarts := candleStarts stored startAt endAt
  scanGaps (fun current => decide (current ∉ existingStarts)) endAt (minuteStarts startAt endAt)

end Goodmoneying.Program
