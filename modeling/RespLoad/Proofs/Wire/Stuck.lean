import RespLoad.Proofs.Wire.Stream

/-!
# Buffers that stay pending for ever

A buffer without a frame at its front waits for more bytes. If it is empty or begins with the array
mark, there are bytes that end the wait, a frame or a fault: each scanner can be brought to an answer
(`Responsive`), and so can scanners in a row, because the first keeps its answer. A buffer that begins
with any other byte waits for ever, and so does a stream once the loop has come to such a byte at the
place where it looks for a frame. How long the bytes are that end a wait is not spoken of.
-/
namespace RespLoad

namespace Scan

section Responsive

variable {α β : Type}

/-- Whatever is at hand, there are bytes with which the scanner answers. -/
def Responsive (scanner : Bytes → Scan α) : Prop :=
  ∀ buffer, ∃ more, scanner (buffer ++ more) ≠ .incomplete

theorem responsive_complete (value : α) : Responsive (Scan.complete value) :=
  fun _ => ⟨[], fun h => by cases h⟩

/-- The first scanner is brought to its answer, which it keeps, and then the second to its own. -/
theorem Responsive.andThen {scanner : Bytes → Scan α} {next : α → Bytes → Scan β}
    (hr : Responsive scanner) (hs : Stable scanner) (hn : ∀ value, Responsive (next value)) :
    Responsive fun buffer => (scanner buffer).andThen next := by
  intro buffer
  obtain ⟨more, hmore⟩ := hr buffer
  cases hb : scanner (buffer ++ more) with
  | incomplete => exact absurd hb hmore
  | malformed rest => exact ⟨more, by simp [hb, Scan.andThen]⟩
  | complete value rest =>
    obtain ⟨last, hlast⟩ := hn value rest
    refine ⟨more ++ last, ?_⟩
    have hkept := hs (buffer ++ more) last hmore
    rw [hb, List.append_assoc] at hkept
    simp only [hkept, extend, Scan.andThen]
    exact hlast

/-- A line end behind the buffer ends a line, if none has ended before. -/
theorem exists_line?_append_crlf (buffer : Bytes) :
    ∃ line rest, line? (buffer ++ Bytes.crlf) = some (line, rest) := by
  induction buffer with
  | nil => exact ⟨[], [], rfl⟩
  | cons a buffer ih =>
    obtain ⟨line, rest, hline⟩ := ih
    cases hb : buffer ++ Bytes.crlf with
    | nil => rw [hb] at hline; cases hline
    | cons b tail =>
      rw [List.cons_append, hb, line?]
      by_cases hcrlf : a = Bytes.cr ∧ b = Bytes.lf
      · exact ⟨[], tail, if_pos hcrlf⟩
      · rw [if_neg hcrlf, ← hb, hline]
        exact ⟨a :: line, rest, rfl⟩

theorem responsive_size : Responsive size := by
  intro buffer
  obtain ⟨line, rest, hline⟩ := exists_line?_append_crlf buffer
  refine ⟨Bytes.crlf, ?_⟩
  simp only [size, hline]
  split <;> exact fun h => by cases h

/-- Enough bytes behind the buffer make up the data and two bytes where its line end is due. -/
theorem responsive_block (length : Nat) : Responsive (block length) := by
  intro buffer
  refine ⟨List.replicate (length + 2) 0, ?_⟩
  unfold block
  match hd : (buffer ++ List.replicate (length + 2) 0).drop length with
  | a :: b :: rest =>
    dsimp only
    split <;> exact fun h => by cases h
  | [] | [a] =>
    have hlength := congrArg List.length hd
    simp only [List.length_drop, List.length_append, List.length_replicate, List.length_cons,
      List.length_nil] at hlength
    omega

theorem responsive_argument : Responsive argument := by
  intro buffer
  cases buffer with
  | nil => exact ⟨[0], fun h => by cases h⟩
  | cons b rest =>
    simp only [List.cons_append, argument]
    split
    · exact responsive_size.andThen stable_size responsive_block rest
    · exact ⟨[], fun h => by cases h⟩

theorem responsive_arguments (count : Nat) : Responsive (arguments count) := by
  induction count with
  | zero => exact responsive_complete []
  | succ count ih =>
    refine responsive_argument.andThen stable_argument fun first => ?_
    exact ih.andThen (stable_arguments count) fun others => responsive_complete (first :: others)

/-- An answer can be brought about for a buffer on which a request may begin. -/
theorem exists_request_answer {buffer : Bytes}
    (h : buffer = [] ∨ buffer.head? = some Command.arrayMark) :
    ∃ more, request (buffer ++ more) ≠ .incomplete := by
  have hmarked : ∀ rest, ∃ more,
      request (Command.arrayMark :: (rest ++ more)) ≠ .incomplete := fun rest => by
    simp only [request, if_true]
    exact responsive_size.andThen stable_size responsive_arguments rest
  cases buffer with
  | nil =>
    obtain ⟨more, hmore⟩ := hmarked []
    exact ⟨Command.arrayMark :: more, hmore⟩
  | cons b rest =>
    obtain rfl : b = Command.arrayMark := by simpa using h
    exact hmarked rest

end Responsive

end Scan

namespace Frame

/-- No bytes that may still come make a frame at the front of the buffer. -/
def Stuck (buffer : Bytes) : Prop := ∀ more, take? (buffer ++ more) = none

/-- The places in a stream where the receive loop has looked for a frame: its front, and behind each
frame that was taken. -/
def boundaries : List Taken → List Nat
  | [] => [0]
  | taken :: more => 0 :: (boundaries more).map (taken.consumed + ·)

theorem take?_eq_none_iff {buffer : Bytes} :
    take? buffer = none ↔ Scan.request buffer = .incomplete := by
  unfold take?
  split <;> simp_all

theorem exists_take?_append {buffer : Bytes}
    (h : buffer = [] ∨ buffer.head? = some Command.arrayMark) :
    ∃ more taken, take? (buffer ++ more) = some taken := by
  obtain ⟨more, hmore⟩ := Scan.exists_request_answer h
  exact ⟨more, Option.ne_none_iff_exists'.mp (mt take?_eq_none_iff.mp hmore)⟩

theorem take?_of_ne_arrayMark {byte : UInt8} (h : byte ≠ Command.arrayMark) (rest : Bytes) :
    take? (byte :: rest) = none := by
  rw [take?_eq_none_iff, Scan.request, if_neg h]

theorem stuck_of_ne_arrayMark {byte : UInt8} (h : byte ≠ Command.arrayMark) (rest : Bytes) :
    Stuck (byte :: rest) := fun more => take?_of_ne_arrayMark h (rest ++ more)

theorem stuck_iff {buffer : Bytes} :
    Stuck buffer ↔ ∃ byte, buffer[0]? = some byte ∧ byte ≠ Command.arrayMark := by
  constructor
  · intro h
    by_contra hnone
    have hbegins : buffer = [] ∨ buffer.head? = some Command.arrayMark := by
      cases buffer with
      | nil => exact Or.inl rfl
      | cons b rest => exact Or.inr (congrArg some (by_contra fun hb => hnone ⟨b, rfl, hb⟩))
    obtain ⟨more, taken, htaken⟩ := exists_take?_append hbegins
    rw [h more] at htaken
    cases htaken
  · rintro ⟨byte, hb, hne⟩
    cases buffer with
    | nil => cases hb
    | cons b rest =>
      cases hb
      exact stuck_of_ne_arrayMark hne rest

/-- What arrives behind a stuck buffer stays pending with it. -/
theorem Stuck.receiveAll {buffer : Bytes} (h : Stuck buffer) (chunks : List Bytes) :
    receiveAll buffer chunks = ([], buffer ++ chunks.flatten) := by
  have hnone : take? buffer = none := by
    have h0 := h []
    rwa [List.append_nil] at h0
  rw [receiveAll_eq_takeAll chunks hnone, takeAll_of_none (h _)]

/-- Where a frame was taken the array mark stands, so only behind the last frame can another byte
stand at a boundary. -/
theorem stuck_pending_iff (stream : Bytes) :
    Stuck (takeAll stream).2 ↔
      ∃ n ∈ boundaries (takeAll stream).1, ∃ byte, stream[n]? = some byte ∧
        byte ≠ Command.arrayMark := by
  fun_induction takeAll stream with
  | case1 stream hnone =>
    rw [stuck_iff]
    simp only [boundaries, List.mem_singleton, exists_eq_left]
  | case2 stream taken htaken more pending hrest ih =>
    -- A frame was taken at the front, so the byte looked for stands at a later boundary.
    have hfront : ∀ byte, stream[0]? = some byte → byte = Command.arrayMark := by
      intro byte hb
      by_contra hne
      have hstuck := stuck_iff.mpr ⟨byte, hb, hne⟩ []
      rw [List.append_nil, htaken] at hstuck
      cases hstuck
    rw [hrest] at ih
    simp only [ih, boundaries, List.mem_cons, List.mem_map, List.getElem?_drop]
    constructor
    · rintro ⟨n, hn, hbyte⟩
      exact ⟨_, Or.inr ⟨n, hn, rfl⟩, hbyte⟩
    · rintro ⟨_, rfl | ⟨n, hn, rfl⟩, byte, hb, hne⟩
      · exact absurd (hfront byte hb) hne
      · exact ⟨n, hn, byte, hb, hne⟩

/-- When the parser gets stuck. A buffer that is empty or begins with the array mark can always be
continued to an answer. One that begins with another byte never answers, and nothing that arrives later
is dropped. A stream has come to that exactly if one of the boundaries that the receive loop has reached
is followed by a byte other than the array mark. -/
theorem stuck_exactly :
    (∀ buffer : Bytes, buffer = [] ∨ buffer.head? = some Command.arrayMark →
      ∃ more taken, take? (buffer ++ more) = some taken) ∧
    (∀ (byte : UInt8) (rest : Bytes), byte ≠ Command.arrayMark →
      (∀ more, take? (byte :: rest ++ more) = none) ∧
        ∀ chunks, receiveAll (byte :: rest) chunks = ([], byte :: rest ++ chunks.flatten)) ∧
    ∀ chunks, Stuck (receiveAll [] chunks).2 ↔
      ∃ n ∈ boundaries (receiveAll [] chunks).1, ∃ byte, chunks.flatten[n]? = some byte ∧
        byte ≠ Command.arrayMark := by
  refine ⟨fun buffer h => exists_take?_append h, fun byte rest h => ?_, fun chunks => ?_⟩
  · have hstuck := stuck_of_ne_arrayMark h rest
    exact ⟨hstuck, hstuck.receiveAll⟩
  · rw [receiveAll_eq_takeAll chunks rfl, List.nil_append]
    exact stuck_pending_iff chunks.flatten

/-- A bulk string that lacks its last byte can still be had. Behind a bad length the loop goes on in the
middle of the request, with a byte that is no array mark, and is stuck. -/
theorem stuck_exactly_behind_bad_length :
    let short := utf8 "*1\r\n$3\r\nab"
    let chunks := [utf8 "*1\r\n$x", utf8 "\r\nPING\r\n", utf8 "*1\r\n"]
    (∃ more taken, take? (short ++ more) = some taken) ∧
      (∀ more, take? (utf8 "PING" ++ more) = none) ∧
      boundaries (receiveAll [] chunks).1 = [0, 8] ∧ Stuck (receiveAll [] chunks).2 := by
  intro short chunks
  have hboundaries : boundaries (receiveAll [] chunks).1 = [0, 8] := by
    rw [receiveAll_eq_takeAll chunks rfl]
    cbv
  obtain ⟨hanswer, hother, hstream⟩ := stuck_exactly
  refine ⟨hanswer short (by decide), (hother 80 (utf8 "ING") (by decide)).1, hboundaries, ?_⟩
  refine (hstream chunks).mpr ⟨8, ?_, 80, by decide, by decide⟩
  rw [hboundaries]
  decide

end Frame

end RespLoad
