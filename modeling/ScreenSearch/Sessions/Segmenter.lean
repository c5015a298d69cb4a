import Mathlib.Data.List.Destutter
import Mathlib.Order.WithBot
import ScreenSearch.Sessions.Confidence
import ScreenSearch.Sessions.Micro

/-!
# Pass two of the segmenter: micro spans to session drafts

Meeting bands take the non-AI micro spans whose midpoint they contain. What is
left walks in time order over the AI tracks, the pending ramp and the focus
track; `Walk` is the state of that loop. `segmentWithTaxonomy` is the whole
segmenter.
-/

namespace ScreenSearch.Sessions

open Assoc Sorting

inductive Identity where
  | ai (id : String)
  | meeting (id : String)
  | none
  deriving DecidableEq, Repr

def identityOf (span : MicroSpan) : Identity :=
  match span.recognition with
  | some r =>
    match r.kind with
    | .ai => .ai r.id
    | .meeting => .meeting r.id
    | _ => .none
  | Option.none => .none

/-- A meeting span outside every band walks as an unrecognized one. -/
def freeIdentity (span : MicroSpan) : Identity :=
  match identityOf span with
  | .meeting _ => .none
  | other => other

def Identity.isAi : Identity → Bool
  | .ai _ => true
  | _ => false

def duration (span : MicroSpan) : Int := max (span.lastTs - span.firstTs) 0

/-- `i64` division truncates. -/
def midpoint (span : MicroSpan) : Int := span.firstTs + (span.lastTs - span.firstTs).tdiv 2

def stemOf (span : MicroSpan) : String := Text.splitFirst ['|'] span.key

/-! ## Meeting bands -/

structure Band where
  startMs : Int
  endMs : Int
  id : String
  host : Option SessionHost
  presenceMs : Int
  absorbedMs : Int
  frameIds : List Int
  deriving DecidableEq, Repr

/-- The band of a chain of one meeting's spans, if the chain is long enough. -/
def pushBandIfQualified (chain : List MicroSpan) (id : String) (params : SegmentationParams)
    (out : List Band) : List Band :=
  match chain.head?, chain.getLast? with
  | some first, some last =>
    if last.lastTs - first.firstTs < params.focusMinLenMs then out
    else out ++
      [{ startMs := first.firstTs
         endMs := last.lastTs
         id := id
         host := first.recognition.bind Recognized.host
         presenceMs := (chain.map duration).sum
         absorbedMs := 0
         frameIds := [] }]
  | _, _ => out

def owningBandIndex (at_ : Int) (bands : List Band) : Option Nat :=
  let containing := bands.zipIdx.filter fun entry =>
    decide (entry.1.startMs ≤ at_) && decide (at_ ≤ entry.1.endMs)
  -- greatest presence, then earliest start
  (maxByKey (fun entry : Band × Nat =>
    toLex (entry.1.presenceMs, OrderDual.toDual entry.1.startMs)) containing).map Prod.snd

def addMeetingSpan (byIdentity : HashMap (List MicroSpan)) (span : MicroSpan) :
    HashMap (List MicroSpan) :=
  match identityOf span with
  | .meeting id => byIdentity.insert id (((byIdentity.lookup id).getD []) ++ [span])
  | _ => byIdentity

/-- The spans of every meeting, in the order of the micro list. -/
def meetingSpans (micros : List MicroSpan) : HashMap (List MicroSpan) :=
  micros.foldl addMeetingSpan ∅

/-- One span of a meeting: close the chain behind it on a long gap. -/
def chainSpan (id : String) (params : SegmentationParams)
    (state : List MicroSpan × List Band) (span : MicroSpan) : List MicroSpan × List Band :=
  match state.1.getLast? with
  | some previous =>
    if params.meetingGapMs < span.firstTs - previous.lastTs then
      ([span], pushBandIfQualified state.1 id params state.2)
    else (state.1 ++ [span], state.2)
  | none => (state.1 ++ [span], state.2)

def bandsOfMeeting (params : SegmentationParams) (bands : List Band)
    (entry : Σ _ : String, List MicroSpan) : List Band :=
  let state := entry.2.foldl (chainSpan entry.1 params) ([], bands)
  pushBandIfQualified state.1 entry.1 params state.2

/-- The bands before they take any span. -/
def emptyBands (order : HashOrder) (micros : List MicroSpan) (params : SegmentationParams) :
    List Band :=
  sortByKey (fun band : Band => toLex (band.startMs, toLex (band.endMs, band.id)))
    ((order.entries (meetingSpans micros)).foldl (bandsOfMeeting params) [])

/-- What a band takes from a span it owns. -/
def Band.absorb (band : Band) (span : MicroSpan) : Band :=
  { band with
    absorbedMs :=
      if identityOf span = .meeting band.id then band.absorbedMs
      else band.absorbedMs + duration span
    frameIds := band.frameIds ++ span.frameIds }

def absorbSpan (bands : List Band) (span : MicroSpan) : List Band :=
  if (identityOf span).isAi then bands
  else
    match owningBandIndex (midpoint span) bands with
    | some index => bands.modify index fun band => band.absorb span
    | none => bands

def buildBands (order : HashOrder) (micros : List MicroSpan) (params : SegmentationParams) :
    List Band :=
  micros.foldl absorbSpan (emptyBands order micros params)

/-! ## Tracks -/

structure OpenTrack where
  startMs : Int
  endMs : Int
  firstId : Int
  frameIds : List Int
  aiId : Option String
  aiHost : Option SessionHost
  aiPresenceMs : Int
  absorbedMs : Int
  stemDuration : HashMap Int
  stemFrames : HashMap Nat

structure Ramp where
  startMs : Int
  firstId : Int
  durationMs : Int
  frameIds : List Int
  deriving DecidableEq, Repr

namespace OpenTrack

def newAi (span : MicroSpan) (id : String) (host : Option SessionHost) : OpenTrack where
  startMs := span.firstTs
  endMs := max span.lastTs span.firstTs
  firstId := span.firstId
  frameIds := span.frameIds
  aiId := some id
  aiHost := host
  aiPresenceMs := duration span
  absorbedMs := 0
  stemDuration := ∅
  stemFrames := ∅

def accrueStem (track : OpenTrack) (span : MicroSpan) : OpenTrack :=
  let stem := stemOf span
  { track with
    stemDuration := track.stemDuration.insert stem
      ((track.stemDuration.lookup stem).getD 0 + duration span)
    stemFrames := track.stemFrames.insert stem
      ((track.stemFrames.lookup stem).getD 0 + span.frameIds.length) }

def newFocus (span : MicroSpan) : OpenTrack :=
  accrueStem
    { startMs := span.firstTs
      endMs := max span.lastTs span.firstTs
      firstId := span.firstId
      frameIds := span.frameIds
      aiId := none
      aiHost := none
      aiPresenceMs := 0
      absorbedMs := 0
      stemDuration := ∅
      stemFrames := ∅ } span

def extend (track : OpenTrack) (span : MicroSpan) : OpenTrack :=
  { track with
    endMs := max track.endMs span.lastTs
    frameIds := track.frameIds ++ span.frameIds }

def absorbAi (track : OpenTrack) (span : MicroSpan) : OpenTrack :=
  { track with aiPresenceMs := track.aiPresenceMs + duration span }.extend span

def absorbNone (track : OpenTrack) (span : MicroSpan) : OpenTrack :=
  let extended := { track with absorbedMs := track.absorbedMs + duration span }.extend span
  if extended.aiId.isNone then extended.accrueStem span else extended

def prependRamp (track : OpenTrack) (ramp : Ramp) : OpenTrack :=
  { track with
    startMs := if ramp.startMs < track.startMs then ramp.startMs else track.startMs
    firstId := if ramp.startMs < track.startMs then ramp.firstId else track.firstId
    absorbedMs := track.absorbedMs + ramp.durationMs
    frameIds := ramp.frameIds ++ track.frameIds }

def dominantStem (order : HashOrder) (track : OpenTrack) : Option String :=
  let candidates := (order.entries track.stemDuration).map fun entry =>
    (entry.1, entry.2, (track.stemFrames.lookup entry.1).getD 0)
  -- longest, then most frames, then name
  let sorted := sortByKey (fun c : String × Int × Nat =>
    toLex (OrderDual.toDual c.2.1, toLex (OrderDual.toDual c.2.2, c.1))) candidates
  (sorted.head?.map Prod.fst).filter fun stem => !stem.isEmpty

end OpenTrack

def frameDensity (frameCount : Nat) (durationMs : Int) : Rat :=
  if durationMs ≤ 0 then 0 else frameCount * 3600000 / durationMs

/-- `sort_unstable` followed by `dedup`. -/
def sortDedup (ids : List Int) : List Int :=
  (ids.insertionSort (· ≤ ·)).destutter (· ≠ ·)

/-- The draft a track closes into, if it passes its gates. -/
def finalizeTrack (order : HashOrder) (track : OpenTrack) (closedByGap : Bool)
    (params : SegmentationParams) : Option SessionDraft :=
  let endMs := max track.endMs track.startMs
  let durationMs := endMs - track.startMs
  let frameIds := sortDedup track.frameIds
  let isOpen := !closedByGap && decide (params.nowMs - endMs < params.mergeGapMs)
  match track.aiId with
  | some id =>
    if params.minLenMs ≤ durationMs ∧ params.identityQualifyMs ≤ track.aiPresenceMs then
      some
        { startedAt := track.startMs
          endedAt := endMs
          kind := .ai
          tool := some id
          host := track.aiHost
          contextKey := "ai:" ++ id
          confidence := anchoredConfidence track.aiPresenceMs track.absorbedMs
          frameIds := frameIds
          isOpen := isOpen }
    else none
  | none =>
    let stem := track.dominantStem order
    let density := frameDensity frameIds.length durationMs
    if params.focusMinLenMs ≤ durationMs ∧
        (params.focusMinDensityFph ≤ 0 ∨ (params.focusMinDensityFph : Rat) ≤ density) then
      some
        { startedAt := track.startMs
          endedAt := endMs
          kind := .focus
          tool := none
          host := none
          contextKey := (stem.map fun stem => "focus:" ++ stem).getD "focus"
          confidence := focusConfidence stem density params.focusMinDensityFph
          frameIds := frameIds
          isOpen := isOpen }
    else none

/-! ## The walk -/

/-- The tracks, the focus track and the drafts closed so far. -/
structure Tracks where
  tracks : HashMap OpenTrack
  focus : Option OpenTrack
  out : List SessionDraft

/-- The loop state: unrecognized spans wait in `pending` until something decides
where they belong. -/
structure Walk extends Tracks where
  pending : List MicroSpan

def Walk.initial : Walk where
  tracks := ∅
  focus := none
  out := []
  pending := []

/-- Close a track into `out`. -/
def Tracks.finalize (order : HashOrder) (params : SegmentationParams) (w : Tracks)
    (track : OpenTrack) (closedByGap : Bool) : Tracks :=
  { w with out := w.out ++ (finalizeTrack order track closedByGap params).toList }

def extendOrOpenFocus (order : HashOrder) (params : SegmentationParams) (w : Tracks)
    (span : MicroSpan) : Tracks :=
  match w.focus with
  | some track =>
    if params.mergeGapMs ≤ span.firstTs - track.endMs then
      { w.finalize order params track true with focus := some (OpenTrack.newFocus span) }
    else { w with focus := some (track.absorbNone span) }
  | none => { w with focus := some (OpenTrack.newFocus span) }

/-- The AI track touched last, among those within the merge gap of the span. -/
def lastTouched (order : HashOrder) (params : SegmentationParams) (tracks : HashMap OpenTrack)
    (span : MicroSpan) : Option String :=
  let near := (order.entries tracks).filter fun entry =>
    decide (span.firstTs - entry.2.endMs < params.mergeGapMs)
  (maxByKey (fun entry : Σ _ : String, OpenTrack => toLex (entry.2.endMs, entry.1)) near).map
    Sigma.fst

def Ramp.add (ramp : Option Ramp) (span : MicroSpan) : Ramp :=
  let ramp := ramp.getD
    { startMs := span.firstTs, firstId := span.firstId, durationMs := 0, frameIds := [] }
  { startMs := min ramp.startMs span.firstTs
    firstId := min ramp.firstId span.firstId
    durationMs := ramp.durationMs + duration span
    frameIds := ramp.frameIds ++ span.frameIds }

/-- One pending span: to the AI track touched last, else into the ramp of the AI
track about to start, else to the focus track. -/
def flushSpan (order : HashOrder) (params : SegmentationParams) (rampStart : Option Int)
    (state : Option Ramp × Tracks) (span : MicroSpan) : Option Ramp × Tracks :=
  match lastTouched order params state.2.tracks span with
  | some id =>
    match state.2.tracks.lookup id with
    | some track =>
      (state.1, { state.2 with tracks := state.2.tracks.insert id (track.absorbNone span) })
    | none => state
  | none =>
    if rampStart.any fun start => decide (start - span.lastTs < params.mergeGapMs) then
      (some (Ramp.add state.1 span), state.2)
    else (state.1, extendOrOpenFocus order params state.2 span)

def flushPending (order : HashOrder) (params : SegmentationParams) (rampStart : Option Int)
    (w : Walk) : Option Ramp × Walk :=
  let state := w.pending.foldl (flushSpan order params rampStart) (none, w.toTracks)
  (state.1, { toTracks := state.2, pending := [] })

/-- Flush what has waited for a merge gap before `span` arrives. -/
def flushStale (order : HashOrder) (params : SegmentationParams) (w : Walk) (span : MicroSpan) :
    Walk :=
  if w.pending.getLast?.any fun last =>
      decide (params.mergeGapMs ≤ span.firstTs - last.lastTs) then
    (flushPending order params none w).2
  else w

/-- Close the AI track of `id` when the merge gap has passed since its end. -/
def closeGapped (order : HashOrder) (params : SegmentationParams) (w : Walk) (id : String)
    (span : MicroSpan) : Walk :=
  match w.tracks.lookup id with
  | some track =>
    if params.mergeGapMs ≤ span.firstTs - track.endMs then
      { { w with tracks := w.tracks.erase id }.toTracks.finalize order params track true with
        pending := w.pending }
    else w
  | none => w

def walkAi (order : HashOrder) (params : SegmentationParams) (w : Walk) (id : String)
    (span : MicroSpan) : Walk :=
  let w := closeGapped order params w id span
  let rampStart := if w.tracks.lookup id |>.isSome then none else some span.firstTs
  let (ramp, w) := flushPending order params rampStart w
  match w.tracks.lookup id with
  | some track => { w with tracks := w.tracks.insert id (track.absorbAi span) }
  | none =>
    let track := OpenTrack.newAi span id (span.recognition.bind Recognized.host)
    let track := (ramp.map track.prependRamp).getD track
    { w with tracks := w.tracks.insert id track }

def walkNone (order : HashOrder) (params : SegmentationParams) (w : Walk) (span : MicroSpan) :
    Walk :=
  if params.absorbMaxMs < duration span then
    let w := (flushPending order params none w).2
    { extendOrOpenFocus order params w.toTracks span with pending := w.pending }
  else { w with pending := w.pending ++ [span] }

def walkSpan (order : HashOrder) (params : SegmentationParams) (w : Walk) (span : MicroSpan) :
    Walk :=
  let w := flushStale order params w span
  match freeIdentity span with
  | .ai id => walkAi order params w id span
  | _ => walkNone order params w span

/-- What the loop leaves open is finalized as not closed by a gap. -/
def finishWalk (order : HashOrder) (params : SegmentationParams) (w : Walk) :
    List SessionDraft :=
  let w := (flushPending order params none w).2
  w.out ++
    (order.entries w.tracks).filterMap (fun entry => finalizeTrack order entry.2 false params) ++
    (w.focus.bind fun track => finalizeTrack order track false params).toList

/-! ## The segmenter -/

def bandDraft (params : SegmentationParams) (band : Band) : SessionDraft where
  startedAt := band.startMs
  endedAt := band.endMs
  kind := .meeting
  tool := none
  host := band.host
  contextKey := "meeting:" ++ band.id
  confidence := anchoredConfidence band.presenceMs band.absorbedMs
  frameIds := sortDedup band.frameIds
  isOpen := decide (params.nowMs - band.endMs < params.meetingGapMs)

/-- The spans no band has taken. -/
def freeSpans (micros : List MicroSpan) (bands : List Band) : List MicroSpan :=
  micros.filter fun span =>
    (identityOf span).isAi || (owningBandIndex (midpoint span) bands).isNone

def trackPartition (draft : SessionDraft) : String :=
  if draft.kind = .focus then "focus" else draft.contextKey

/-- Push a draft's start behind the end of the previous one of its partition. -/
def pushBehind (previousEnd : Option Int) (draft : SessionDraft) : SessionDraft :=
  match previousEnd with
  | some previousEnd =>
    if draft.startedAt < previousEnd then
      { draft with startedAt := previousEnd, endedAt := max draft.endedAt previousEnd }
    else draft
  | none => draft

def trimOverlap (state : HashMap Int × List SessionDraft) (draft : SessionDraft) :
    HashMap Int × List SessionDraft :=
  let key := trackPartition draft
  let draft := pushBehind (state.1.lookup key) draft
  (state.1.insert key draft.endedAt, state.2 ++ [draft])

def enforceNonOverlapPerTrack (drafts : List SessionDraft) : List SessionDraft :=
  (drafts.foldl trimOverlap (∅, [])).2

/-- `frame_ids.first()`, an absent frame sorting first. -/
def firstFrame (draft : SessionDraft) : WithBot Int := draft.frameIds.head?

def sortDrafts (drafts : List SessionDraft) : List SessionDraft :=
  sortByKey (fun draft : SessionDraft =>
    toLex (draft.startedAt, toLex (firstFrame draft, draft.contextKey))) drafts

/-- The drafts before they are sorted and trimmed. -/
def rawDrafts (order : HashOrder) (micros : List MicroSpan) (params : SegmentationParams) :
    List SessionDraft :=
  let bands := buildBands order micros params
  let free := freeSpans micros bands
  let walk := free.foldl (walkSpan order params)
    { Walk.initial with out := bands.map (bandDraft params) }
  finishWalk order params walk

def segmentWithTaxonomy (lowercase : String → String) (order : HashOrder)
    (frames : List SegmenterFrame) (taxonomy : Taxonomy) (params : SegmentationParams) :
    List SessionDraft :=
  let micros := segmentMicro lowercase order frames taxonomy params
  sortDrafts (enforceNonOverlapPerTrack (sortDrafts (rawDrafts order micros params)))

end ScreenSearch.Sessions
