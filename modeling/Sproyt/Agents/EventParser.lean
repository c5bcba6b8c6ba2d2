import Mathlib.Data.List.Induction

/-!
# The event stream of the vessels

`EventParser` of `chatbot/observations.rs` takes server-sent events from the chunks in which the
network delivers them: it carries an unfinished line and the data of an unfinished record from one
chunk to the next. The specification reads the whole stream at once, as lines and records.
-/

namespace Sproyt

open List

/-- `MAX_BYTES`. -/
def maxChunkBytes : Nat := 2 * 1024 * 1024

/-- `MAX_LINE`. -/
def maxEventLine : Nat := 16 * 1024

def lineFeed : UInt8 := 10

/-- `serde_json::from_slice`, to which a line feed after the value means nothing. -/
structure EventJson (α : Type) where
  fromSlice : List UInt8 → Option α
  fromSlice_lineFeed : ∀ data, fromSlice (data ++ [lineFeed]) = fromSlice data

structure EventParser where
  line : List UInt8
  data : List UInt8

def withoutReturn (line : List UInt8) : List UInt8 :=
  if line.getLast? = some 13 then line.dropLast else line

/-- What follows `data:` and one blank. -/
def lineData? (line : List UInt8) : Option (List UInt8) :=
  if line.take 5 = [0x64, 0x61, 0x74, 0x61, 0x3a] then
    some (if (line.drop 5).head? = some 0x20 then line.drop 6 else line.drop 5)
  else none

variable {α β : Type} (json : EventJson α)

namespace EventParser

def new : EventParser := ⟨[], []⟩

/-- One round of the loop of `push`, with the event that it pushes. -/
def byte (p : EventParser) (b : UInt8) : Except String (EventParser × Option α) :=
  if b ≠ lineFeed then
    if maxEventLine ≤ p.line.length then .error "ais_event_size"
    else .ok (⟨p.line ++ [b], p.data⟩, none)
  else if withoutReturn p.line = [] then
    .ok (new, if p.data = [] then none else json.fromSlice p.data)
  else
    match lineData? (withoutReturn p.line) with
    | some data =>
      if maxEventLine < p.data.length + (data.length + 1) then .error "ais_event_size"
      else .ok (⟨[], p.data ++ (data ++ [lineFeed])⟩, none)
    | none => .ok (⟨[], p.data⟩, none)

/-- The loop of `push`. -/
def bytes : EventParser → List UInt8 → Except String (EventParser × List α)
  | p, [] => .ok (p, [])
  | p, b :: rest => do
    let (p, event) ← p.byte json b
    let (p, events) ← p.bytes rest
    return (p, event.toList ++ events)

def push (p : EventParser) (chunk : List UInt8) : Except String (EventParser × List α) :=
  if maxChunkBytes < chunk.length then .error "ais_event_size" else p.bytes json chunk

def pushAll : EventParser → List (List UInt8) → Except String (EventParser × List α)
  | p, [] => .ok (p, [])
  | p, chunk :: rest => do
    let (p, events) ← p.push json chunk
    let (p, more) ← p.pushAll rest
    return (p, events ++ more)

end EventParser

/-! ### The whole stream -/

/-- The pieces that end with a separator, and what follows the last of them. -/
def cut (separates : β → Bool) (xs : List β) : List (List β) × List β :=
  xs.foldl (fun (pieces, rest) x =>
    if separates x then (pieces ++ [rest], []) else (pieces, rest ++ [x])) ([], [])

def streamLines (stream : List UInt8) : List (List UInt8) :=
  (cut (· = lineFeed) stream).1.map withoutReturn

def recordEvent (record : List (List UInt8)) : Option α :=
  let data := record.filterMap lineData?
  if data = [] then none else json.fromSlice ([lineFeed].intercalate data)

def streamEvents (stream : List UInt8) : List α :=
  (cut (· = []) (streamLines stream)).1.filterMap (recordEvent json)

variable {json}

theorem cut_concat (separates : β → Bool) (xs : List β) (x : β) :
    cut separates (xs ++ [x]) = if separates x then
      ((cut separates xs).1 ++ [(cut separates xs).2], [])
    else ((cut separates xs).1, (cut separates xs).2 ++ [x]) := by
  rw [cut, foldl_append]
  rfl

theorem streamLines_concat (stream : List UInt8) (b : UInt8) :
    streamLines (stream ++ [b]) = if b = lineFeed then
      streamLines stream ++ [withoutReturn (cut (· = lineFeed) stream).2]
    else streamLines stream := by
  rw [streamLines, cut_concat]
  by_cases hb : b = lineFeed
  · simp [hb, streamLines]
  · simp [hb, streamLines]

theorem flatMap_ended {data : List (List UInt8)} (h : data ≠ []) :
    data.flatMap (· ++ [lineFeed]) = [lineFeed].intercalate data ++ [lineFeed] := by
  induction data with
  | nil => exact absurd rfl h
  | cons line rest ih =>
    cases rest with
    | nil => simp [intercalate]
    | cons next rest =>
      rw [flatMap_cons, ih (cons_ne_nil next rest), intercalate_cons_cons]
      simp

namespace EventParser

theorem bytes_append (p : EventParser) (xs ys : List UInt8) :
    p.bytes json (xs ++ ys) = (do
      let (p, events) ← p.bytes json xs
      let (p, more) ← p.bytes json ys return (p, events ++ more)) := by
  induction xs generalizing p with
  | nil => exact (bind_pure _).symm
  | cons b xs ih =>
    rw [cons_append, bytes, bytes, bind_assoc]
    congr 1
    funext ⟨p, event⟩
    dsimp only
    rw [ih, bind_assoc, bind_assoc]
    congr 1
    funext ⟨p, events⟩
    simp only [bind_assoc, pure_bind, append_assoc]

/-- How a stream is cut into chunks makes no difference. -/
theorem pushAll_eq {chunks : List (List UInt8)} (hsize : ∀ c ∈ chunks, c.length ≤ maxChunkBytes)
    (p : EventParser) : p.pushAll json chunks = p.bytes json chunks.flatten := by
  induction chunks generalizing p with
  | nil => rfl
  | cons chunk rest ih =>
    obtain ⟨hchunk, hrest⟩ := forall_mem_cons.1 hsize
    have hpush : p.push json chunk = p.bytes json chunk := if_neg (Nat.not_lt.2 hchunk)
    rw [flatten_cons, bytes_append, pushAll, hpush]
    simp only [ih hrest]

/-- What the parser carries after a part of the stream, and what it has told. -/
structure Agrees (json : EventJson α) (stream : List UInt8) (p : EventParser) (events : List α) :
    Prop where
  line : p.line = (cut (· = lineFeed) stream).2
  data : p.data = ((cut (· = []) (streamLines stream)).2.filterMap lineData?).flatMap
    (· ++ [lineFeed])
  events : events = streamEvents json stream
  bounded : p.line.length ≤ maxEventLine ∧ p.data.length ≤ maxEventLine

variable {p q : EventParser} {stream : List UInt8} {events : List α} {event : Option α} {b : UInt8}

theorem Agrees.ended (h : Agrees json stream p events) :
    (if p.data = [] then none else json.fromSlice p.data) =
      recordEvent json (cut (· = []) (streamLines stream)).2 := by
  rw [recordEvent, h.data]
  generalize ((cut (· = []) (streamLines stream)).2.filterMap lineData?) = data
  by_cases hdata : data = []
  · simp [hdata]
  · rw [flatMap_ended hdata, if_neg (by simp), if_neg hdata, json.fromSlice_lineFeed]

theorem Agrees.byte (h : Agrees json stream q events) (hbyte : q.byte json b = .ok (p, event)) :
    Agrees json (stream ++ [b]) p (events ++ event.toList) := by
  obtain ⟨hline, hdata⟩ := h.bounded
  have hlines := streamLines_concat stream b
  by_cases hb : b = lineFeed
  · rw [if_pos hb, ← h.line] at hlines
    have hrest : (cut (· = lineFeed) (stream ++ [b])).2 = [] := by simp [cut_concat, hb]
    have hcut := cut_concat (· = []) (streamLines stream) (withoutReturn q.line)
    rw [← hlines] at hcut
    rw [EventParser.byte, if_neg (not_not.2 hb)] at hbyte
    by_cases hblank : withoutReturn q.line = []
    · -- a blank line ends the record
      rw [if_pos hblank, h.ended] at hbyte
      cases hbyte
      refine ⟨hrest.symm, by simp [hcut, hblank, new], ?_, Nat.zero_le _, Nat.zero_le _⟩
      rw [h.events, streamEvents, streamEvents, hcut, if_pos (by simp [hblank]), filterMap_append,
        filterMap_cons]
      cases recordEvent json (cut (· = []) (streamLines stream)).2 <;> rfl
    · rw [if_neg hblank] at hbyte
      have hevents : events = streamEvents json (stream ++ [b]) := by
        simp [streamEvents, hcut, hblank, h.events]
      cases hpayload : lineData? (withoutReturn q.line) with
      | some data =>
        simp only [hpayload] at hbyte
        split at hbyte
        · cases hbyte
        · next hfits =>
          cases hbyte
          refine ⟨hrest.symm, by simp [hcut, hblank, hpayload, h.data], by simpa, ?_⟩
          simp only [length_append, length_singleton, length_nil]
          omega
      | none =>
        simp only [hpayload] at hbyte
        cases hbyte
        exact ⟨hrest.symm, by simp [hcut, hblank, hpayload, h.data], by simpa, Nat.zero_le _, hdata⟩
  · rw [if_neg hb] at hlines
    rw [EventParser.byte, if_pos hb] at hbyte
    split at hbyte
    · cases hbyte
    · next hshort =>
      cases hbyte
      refine ⟨by simp [cut_concat, hb, h.line], by rw [hlines, h.data], ?_, ?_, hdata⟩
      · simp [streamEvents, hlines, h.events]
      · simp only [length_append, length_singleton]
        omega

theorem agrees_of_bytes (h : new.bytes json stream = .ok (p, events)) :
    Agrees json stream p events := by
  induction stream using List.reverseRecOn generalizing p events with
  | nil =>
    cases h
    exact ⟨rfl, rfl, rfl, Nat.zero_le _, Nat.zero_le _⟩
  | append_singleton stream b ih =>
    rw [bytes_append] at h
    cases hbefore : new.bytes json stream with
    | error e => cases hbefore ▸ h
    | ok before =>
      cases hbyte : before.1.byte json b with
      | error e => simp [hbefore, hbyte, bytes, bind, Except.bind] at h
      | ok last =>
        simp only [hbefore, bytes, hbyte, bind, Except.bind, pure, Except.pure, append_nil] at h
        cases h
        exact (ih hbefore).byte hbyte

end EventParser

/-- Chunks of one stream all fail or none does, and with the same events; the events are those of
the whole stream, and neither buffer is longer than a line may be. -/
theorem event_parser_ignores_chunks {α : Type} (json : EventJson α) {chunks : List (List UInt8)}
    (hsize : ∀ c ∈ chunks, c.length ≤ maxChunkBytes) :
    (∀ others : List (List UInt8), (∀ c ∈ others, c.length ≤ maxChunkBytes) →
      others.flatten = chunks.flatten →
        EventParser.new.pushAll json others = EventParser.new.pushAll json chunks) ∧
    ∀ p events, EventParser.new.pushAll json chunks = .ok (p, events) →
      events = streamEvents json chunks.flatten ∧
        p.line.length ≤ maxEventLine ∧ p.data.length ≤ maxEventLine := by
  refine ⟨fun others hothers hsame => ?_, fun p events h => ?_⟩
  · rw [EventParser.pushAll_eq hothers, EventParser.pushAll_eq hsize, hsame]
  · rw [EventParser.pushAll_eq hsize] at h
    have hagrees := EventParser.agrees_of_bytes h
    exact ⟨hagrees.events, hagrees.bounded⟩

theorem event_split_in_its_return :
    let json : EventJson (List UInt8) := ⟨fun data => some (data.filter (· ≠ lineFeed)), by simp⟩
    let chunks := [[0x64, 0x61, 0x74, 0x61, 0x3a, 0x37, 13], [10, 13], [10]]
    streamEvents json chunks.flatten = [[0x37]] ∧
      EventParser.new.pushAll json [chunks.flatten] = EventParser.new.pushAll json chunks :=
  ⟨by decide, (event_parser_ignores_chunks _ (by decide)).1 _ (by decide) (by simp)⟩

end Sproyt
