import RespLoad.Proofs.Wire.Scan

/-!
# Streams and chunks

The receive loop sees a stream in chunks of any size. A frame that has been found stays the same
when more bytes arrive (`take?_append`), so what a buffer delivers can be taken before or after the
next arrival (`takeAll_append`), and in the end only the stream counts (`receiveAll_eq_takeAll`). What
is delivered are the frames that `take?` finds behind one another, up to where it finds none (`Holds`).
Nothing is assumed about the stream: pieces that break the framing are frames like any other.
-/
namespace RespLoad.Frame

theorem take?_append {buffer : Bytes} {taken : Taken} (more : Bytes)
    (h : take? buffer = some taken) : take? (buffer ++ more) = some taken := by
  have hs := Scan.stable_request buffer more
  cases hr : Scan.request buffer with
  | incomplete => simp [take?, hr] at h
  | malformed rest =>
    rw [hr] at hs
    simp only [take?, hr, hs (by simp), Scan.extend, List.length_append, Option.some.injEq] at h ⊢
    rw [← h, Nat.add_sub_add_right]
  | complete command rest =>
    rw [hr] at hs
    simp only [take?, hr, hs (by simp), Scan.extend, List.length_append, Option.some.injEq] at h ⊢
    rw [← h, Nat.add_sub_add_right]

/-- What a frame uses up is what the scanner has left behind it. -/
theorem consumed_eq {buffer : Bytes} {taken : Taken} (h : take? buffer = some taken) :
    ∃ rest, (Scan.request buffer).rest? = some rest ∧
      taken.consumed = buffer.length - rest.length := by
  cases hr : Scan.request buffer with
  | incomplete => simp [take?, hr] at h
  | malformed rest =>
    simp only [take?, hr, Option.some.injEq] at h
    exact ⟨rest, rfl, h ▸ rfl⟩
  | complete command rest =>
    simp only [take?, hr, Option.some.injEq] at h
    exact ⟨rest, rfl, h ▸ rfl⟩

/-- The shortest frame is an asterisk and a line end. -/
theorem three_le_consumed {buffer : Bytes} {taken : Taken} (h : take? buffer = some taken) :
    3 ≤ taken.consumed := by
  obtain ⟨rest, hr, hc⟩ := consumed_eq h
  have hl := Scan.length_add_three_le_of_request hr
  omega

theorem takeAll_of_none {buffer : Bytes} (h : take? buffer = none) :
    takeAll buffer = ([], buffer) := by
  rw [takeAll]
  split
  · rfl
  · rename_i hs
    rw [h] at hs
    cases hs

theorem takeAll_of_some {buffer : Bytes} {taken : Taken} (h : take? buffer = some taken) :
    takeAll buffer =
      (taken :: (takeAll (buffer.drop taken.consumed)).1,
        (takeAll (buffer.drop taken.consumed)).2) := by
  rw [takeAll]
  split
  · rename_i hn
    rw [h] at hn
    cases hn
  · rename_i other hs
    obtain rfl : other = taken := Option.some.inj (hs.symm.trans h)
    rfl

theorem takeAll_nil : takeAll [] = ([], []) := takeAll_of_none rfl

/-- A buffer holds these frames, each the one that is found at the front behind those before it, and no
frame in the bytes behind them. -/
inductive Holds : Bytes → List Taken → Bytes → Prop
  | nothing {buffer : Bytes} (h : take? buffer = none) : Holds buffer [] buffer
  | frame {buffer pending : Bytes} {taken : Taken} {more : List Taken}
      (h : take? buffer = some taken) (rest : Holds (buffer.drop taken.consumed) more pending) :
      Holds buffer (taken :: more) pending

theorem holds_takeAll (buffer : Bytes) : Holds buffer (takeAll buffer).1 (takeAll buffer).2 := by
  fun_induction takeAll buffer with
  | case1 buffer h => exact .nothing h
  | case2 buffer taken h more pending hrest ih =>
    rw [hrest] at ih
    exact .frame h ih

theorem Holds.take?_pending {buffer pending : Bytes} {frames : List Taken}
    (h : Holds buffer frames pending) : take? pending = none := by
  induction h with
  | nothing h => exact h
  | frame h rest ih => exact ih

/-- Frames are taken until there is none: what is pending holds no frame. -/
theorem take?_pending (buffer : Bytes) : take? (takeAll buffer).2 = none :=
  (holds_takeAll buffer).take?_pending

/-- Taking frames before more bytes arrive, and going on from what is pending, is taking them
afterwards. -/
theorem takeAll_append (buffer more : Bytes) :
    takeAll (buffer ++ more) =
      ((takeAll buffer).1 ++ (takeAll ((takeAll buffer).2 ++ more)).1,
        (takeAll ((takeAll buffer).2 ++ more)).2) := by
  induction hn : buffer.length using Nat.strong_induction_on generalizing buffer with
  | _ n ih =>
    cases h : take? buffer with
    | none => rw [takeAll_of_none h]; rfl
    | some taken =>
      have hpos := consumed_pos h
      have hle := consumed_le h
      have hd : (buffer ++ more).drop taken.consumed = buffer.drop taken.consumed ++ more :=
        List.drop_append_of_le_length hle
      have hi := ih (buffer.drop taken.consumed).length
        (by rw [List.length_drop]; omega) (buffer.drop taken.consumed) rfl
      rw [takeAll_of_some (take?_append more h), takeAll_of_some h, hd, hi]
      rfl

/-- All that successive chunks deliver to a buffer that holds `pending`, and the bytes left over. -/
def receiveAll (pending : Bytes) (chunks : List Bytes) : List Taken × Bytes :=
  let arrivals := receiveEach pending chunks
  (arrivals.flatMap Prod.fst, (arrivals.map Prod.snd).getLastD pending)

theorem receiveAll_cons (pending chunk : Bytes) (more : List Bytes) :
    receiveAll pending (chunk :: more) =
      ((takeAll (pending ++ chunk)).1 ++ (receiveAll (takeAll (pending ++ chunk)).2 more).1,
        (receiveAll (takeAll (pending ++ chunk)).2 more).2) := by
  simp only [receiveAll, receiveEach, receive, List.flatMap_cons, List.map_cons,
    List.getLastD_cons]

/-- However a stream is cut, the loop delivers what the whole of it holds. The induction needs the
buffer at the start of an arrival to hold no frame, which is so of an empty buffer and of what a
former arrival has left. -/
theorem receiveAll_eq_takeAll (chunks : List Bytes) {pending : Bytes}
    (h : take? pending = none) :
    receiveAll pending chunks = takeAll (pending ++ chunks.flatten) := by
  induction chunks generalizing pending with
  | nil =>
    rw [List.flatten_nil, List.append_nil, takeAll_of_none h]
    rfl
  | cons chunk more ih =>
    rw [receiveAll_cons, ih (take?_pending _), List.flatten_cons, ← List.append_assoc,
      takeAll_append (pending ++ chunk)]

/-- Two ways of cutting one stream deliver the same frames and leave the same bytes pending: the frames that
`take?` finds in the stream one behind the other, and what is left when it finds none. A frame takes at least
three bytes, all of them in the buffer, and does not depend on what follows. -/
theorem receiveAll_eq_of_same_stream :
    (∀ (stream : Bytes) (chunks others : List Bytes),
      chunks.flatten = stream → others.flatten = stream →
        receiveAll [] chunks = receiveAll [] others ∧
        Holds stream (receiveAll [] chunks).1 (receiveAll [] chunks).2 ∧
        take? (receiveAll [] chunks).2 = none) ∧
    (∀ (buffer : Bytes) (taken : Taken), take? buffer = some taken →
      3 ≤ taken.consumed ∧ taken.consumed ≤ buffer.length ∧
        ∀ more, take? (buffer ++ more) = some taken) := by
  constructor
  · intro stream chunks others hc ho
    rw [receiveAll_eq_takeAll chunks rfl, receiveAll_eq_takeAll others rfl, hc, ho]
    exact ⟨rfl, holds_takeAll stream, take?_pending stream⟩
  · intro buffer taken h
    exact ⟨three_le_consumed h, consumed_le h, fun more => take?_append more h⟩

/-- A bad count, a whole request and the start of another, cut inside a line end and cut byte by
byte. -/
theorem receiveAll_eq_of_same_stream_cut :
    let stream := utf8 "*x\r\n*1\r\n$4\r\nPING\r\n*2"
    let single := stream.map fun b => [b]
    let received := receiveAll [] [stream.take 7, stream.drop 7]
    received = receiveAll [] single ∧ Holds stream received.1 received.2 ∧
      take? received.2 = none ∧
      take? (stream.take 4) = some ⟨.malformed, 4⟩ ∧
      take? (stream.take 4 ++ stream.drop 4) = some ⟨.malformed, 4⟩ := by
  intro stream single received
  have h : take? (stream.take 4) = some ⟨.malformed, 4⟩ := by decide
  obtain ⟨hsame, hholds, hpending⟩ := receiveAll_eq_of_same_stream.1 stream
    [stream.take 7, stream.drop 7] single (by decide) (by decide)
  exact ⟨hsame, hholds, hpending, h, (receiveAll_eq_of_same_stream.2 _ _ h).2.2 _⟩

end RespLoad.Frame
