import Mathlib.Data.List.Forall2

/-!
# Frames read from a stream

A stream arrives in pieces. A reader asks for as many items as it still needs, gets the
rest of the current piece or a part of it, and asks again; at the end of the stream it
gets nothing. A frame is a header of fixed size, from which the reader takes the number
of items that follow, and a body.

`items` forgets where the pieces end. On a stream without failures every reading loop
is a function of `items` alone (`read_frame`, `read_cut`, and for lists of frames
`readAll_frames` and `readAll_prefix`).
-/

namespace TuxStack.Frames

/-- What the next read meets. A piece has at least one item. -/
inductive Arrival (α : Type) where
  | data (first : α) (more : List α)
  | interrupted
  | failed (message : String)
deriving DecidableEq, Repr

/-- A reader of frames: the size of a header, what it says about the body, what a body
means, and the errors of a stream that ends or fails. -/
structure Reader (α β ε : Type) where
  headerSize : Nat
  length : List α → Except ε Nat
  decode : List α → Nat → Except ε β
  headerEof : Nat → ε
  bodyEof : Nat → Nat → ε
  retries : Bool
  interrupted : ε
  failed : String → ε

namespace Reader

variable {α β ε : Type} (r : Reader α β ε)

/-- Read until there are `size` items behind `received`. What is not needed of a piece
stays in the stream. -/
def readExact (eof : Nat → ε) (size : Nat) :
    List α → List (Arrival α) → Except ε (List α × List (Arrival α))
  | received, [] =>
    if size ≤ received.length then .ok (received, []) else .error (eof received.length)
  | received, .data first more :: rest =>
    if size ≤ received.length then .ok (received, .data first more :: rest)
    else
      match (first :: more).drop (size - received.length) with
      | [] => readExact eof size (received ++ first :: more) rest
      | next :: later =>
        .ok (received ++ (first :: more).take (size - received.length),
          .data next later :: rest)
  | received, .interrupted :: rest =>
    if size ≤ received.length then .ok (received, .interrupted :: rest)
    else if r.retries then readExact eof size received rest
    else .error r.interrupted
  | received, .failed message :: rest =>
    if size ≤ received.length then .ok (received, .failed message :: rest)
    else .error (r.failed message)

def read (arrivals : List (Arrival α)) : Except ε (β × List (Arrival α)) :=
  match r.readExact r.headerEof r.headerSize [] arrivals with
  | .error e => .error e
  | .ok (header, arrivals) =>
    match r.length header with
    | .error e => .error e
    | .ok length =>
      match r.readExact (r.bodyEof length) length [] arrivals with
      | .error e => .error e
      | .ok (body, arrivals) =>
        match r.decode body length with
        | .error e => .error e
        | .ok value => .ok (value, arrivals)

/-- Read frames until the first error; `none` when the fuel is used up. -/
def readLoop : Nat → List (Arrival α) → List β × Option ε
  | 0, _ => ([], none)
  | fuel + 1, arrivals =>
    match r.read arrivals with
    | .error e => ([], some e)
    | .ok (value, arrivals) =>
      let (values, e) := readLoop fuel arrivals
      (value :: values, e)

def items : List (Arrival α) → List α
  | [] => []
  | .data first more :: rest => first :: more ++ items rest
  | .interrupted :: rest => items rest
  | .failed _ :: rest => items rest

def readAll (arrivals : List (Arrival α)) : List β × Option ε :=
  r.readLoop ((items arrivals).length + 1) arrivals

/-! ## Streams without failures -/

/-- Nothing on the stream stops this reader. -/
def Quiet (arrivals : List (Arrival α)) : Prop :=
  ∀ a ∈ arrivals, (∃ first more, a = .data first more) ∨ (r.retries = true ∧ a = .interrupted)

variable {r}

theorem Quiet.tail {a : Arrival α} {rest : List (Arrival α)} (h : r.Quiet (a :: rest)) :
    r.Quiet rest :=
  fun b hb => h b (List.mem_cons_of_mem a hb)

theorem Quiet.cons {rest : List (Arrival α)} (h : r.Quiet rest) (first : α) (more : List α) :
    r.Quiet (.data first more :: rest) := by
  intro a ha
  rcases List.mem_cons.mp ha with rfl | ha
  · exact .inl ⟨first, more, rfl⟩
  · exact h a ha

/-- A quiet stream with enough items fills the buffer and loses nothing. -/
theorem readExact_enough {eof : Nat → ε} {size : Nat} : ∀ {arrivals : List (Arrival α)}
    {received : List α}, r.Quiet arrivals → received.length ≤ size →
      size ≤ received.length + (items arrivals).length →
      ∃ rest, r.readExact eof size received arrivals =
          .ok (received ++ (items arrivals).take (size - received.length), rest) ∧
        items rest = (items arrivals).drop (size - received.length) ∧ r.Quiet rest
  | [], received, hquiet, hle, henough => by
      have hfull : size ≤ received.length := by simpa [items] using henough
      refine ⟨[], ?_, by simp [items], hquiet⟩
      rw [readExact, if_pos hfull]
      simp [items]
  | .data first more :: rest, received, hquiet, hle, henough => by
      by_cases hfull : size ≤ received.length
      · refine ⟨.data first more :: rest, ?_, ?_, hquiet⟩
        · rw [readExact, if_pos hfull, Nat.sub_eq_zero_of_le hfull]
          simp
        · rw [Nat.sub_eq_zero_of_le hfull]
          rfl
      · rw [readExact, if_neg hfull]
        -- the data that arrived is used up, or some of it is left for the next read
        cases hdrop : (first :: more).drop (size - received.length) with
        | nil =>
          have hshort : (first :: more).length ≤ size - received.length :=
            List.drop_eq_nil_iff.mp hdrop
          have hitems : items (.data first more :: rest) = (first :: more) ++ items rest := rfl
          have hlen : (received ++ first :: more).length =
            received.length + (first :: more).length := List.length_append
          rw [hitems, List.length_append] at henough
          obtain ⟨arrivals, hread, hrest, hquiet'⟩ :=
            @readExact_enough eof size rest (received ++ first :: more) hquiet.tail
              (by omega) (by omega)
          refine ⟨arrivals, ?_, ?_, hquiet'⟩
          · show r.readExact eof size (received ++ first :: more) rest = _
            rw [hread, hitems, List.take_append, List.take_of_length_le hshort, hlen,
              List.append_assoc, Nat.sub_sub]
          · rw [hrest, hitems, List.drop_append, List.drop_of_length_le hshort, hlen,
              Nat.sub_sub, List.nil_append]
        | cons next later =>
          have hlong : size - received.length < (first :: more).length := by
            by_contra hno
            rw [List.drop_of_length_le (by omega)] at hdrop
            cases hdrop
          have hitems : items (.data first more :: rest) = (first :: more) ++ items rest := rfl
          refine ⟨.data next later :: rest, ?_, ?_, hquiet.tail.cons next later⟩
          · rw [hitems, List.take_append_of_le_length (Nat.le_of_lt hlong)]
          · rw [hitems, List.drop_append_of_le_length (Nat.le_of_lt hlong), hdrop]
            rfl
  | .interrupted :: rest, received, hquiet, hle, henough => by
      by_cases hfull : size ≤ received.length
      · refine ⟨.interrupted :: rest, ?_, ?_, hquiet⟩
        · rw [readExact, if_pos hfull, Nat.sub_eq_zero_of_le hfull]
          simp
        · rw [Nat.sub_eq_zero_of_le hfull]
          rfl
      · have hretries : r.retries = true := by
          rcases hquiet .interrupted (by simp) with ⟨first, more, h⟩ | ⟨h, -⟩
          · cases h
          · exact h
        rw [readExact, if_neg hfull, if_pos hretries]
        exact readExact_enough hquiet.tail hle henough
  | .failed message :: rest, received, hquiet, hle, henough => by
      rcases hquiet (.failed message) (by simp) with ⟨first, more, h⟩ | ⟨-, h⟩
      · cases h
      · cases h

/-- A quiet stream with too few items ends the loop, and the error counts them. -/
theorem readExact_short {eof : Nat → ε} {size : Nat} : ∀ {arrivals : List (Arrival α)}
    {received : List α}, r.Quiet arrivals → received.length + (items arrivals).length < size →
      r.readExact eof size received arrivals =
        .error (eof (received.length + (items arrivals).length))
  | [], received, hquiet, hshort => by
      have hlt : received.length < size := by simpa [items] using hshort
      rw [readExact, if_neg (by omega)]
      rfl
  | .data first more :: rest, received, hquiet, hshort => by
      have hitems : (items (.data first more :: rest)).length =
          (first :: more).length + (items rest).length := List.length_append
      rw [hitems] at hshort ⊢
      have hdrop : (first :: more).drop (size - received.length) = [] :=
        List.drop_of_length_le (by omega)
      have hlen : (received ++ first :: more).length =
        received.length + (first :: more).length := List.length_append
      rw [readExact, if_neg (by omega), hdrop]
      show r.readExact eof size (received ++ first :: more) rest = _
      rw [readExact_short hquiet.tail (by omega), hlen, Nat.add_assoc]
  | .interrupted :: rest, received, hquiet, hshort => by
      have hretries : r.retries = true := by
        rcases hquiet .interrupted (by simp) with ⟨first, more, h⟩ | ⟨h, -⟩
        · cases h
        · exact h
      rw [readExact, if_neg (by omega), if_pos hretries]
      exact readExact_short hquiet.tail hshort
  | .failed message :: rest, received, hquiet, hshort => by
      rcases hquiet (.failed message) (by simp) with ⟨first, more, h⟩ | ⟨-, h⟩
      · cases h
      · cases h

/-- A read from its start: the first items, when there are enough. -/
theorem readExact_take (eof : Nat → ε) {size : Nat} {arrivals : List (Arrival α)}
    (hquiet : r.Quiet arrivals) (henough : size ≤ (items arrivals).length) :
    ∃ rest, r.readExact eof size [] arrivals = .ok ((items arrivals).take size, rest) ∧
      items rest = (items arrivals).drop size ∧ r.Quiet rest :=
  readExact_enough hquiet (Nat.zero_le _) (by simpa using henough)

/-- A read from its start that runs into the end of the stream. -/
theorem readExact_eof (eof : Nat → ε) {size : Nat} {arrivals : List (Arrival α)}
    (hquiet : r.Quiet arrivals) (hshort : (items arrivals).length < size) :
    r.readExact eof size [] arrivals = .error (eof (items arrivals).length) := by
  have hzero : ([] : List α).length + (items arrivals).length < size := by simpa using hshort
  have herror : r.readExact eof size [] arrivals = _ := readExact_short hquiet hzero
  simpa using herror

/-! ## Frames -/

/-- The items of a frame that this reader reads as `value`. -/
structure IsFrame (r : Reader α β ε) (value : β) (frame : List α) : Prop where
  split : ∃ header body, frame = header ++ body ∧ header.length = r.headerSize ∧
    r.length header = .ok body.length ∧ r.decode body body.length = .ok value

/-- The error at the end of a stream that stops inside a frame of `size` items. -/
def cut (r : Reader α β ε) (size received : Nat) : ε :=
  if received < r.headerSize then r.headerEof received
  else r.bodyEof (size - r.headerSize) (received - r.headerSize)

theorem read_frame {arrivals : List (Arrival α)} {value : β} {frame rest : List α}
    (h : IsFrame r value frame) (hquiet : r.Quiet arrivals)
    (hitems : items arrivals = frame ++ rest) :
    ∃ arrivals', r.read arrivals = .ok (value, arrivals') ∧ items arrivals' = rest ∧
      r.Quiet arrivals' := by
  obtain ⟨header, body, rfl, hheader, hlength, hdecode⟩ := h.split
  rw [List.append_assoc] at hitems
  have henough : r.headerSize ≤ (items arrivals).length := by
    rw [hitems, ← hheader]
    simp
  obtain ⟨middle, hread₁, hmiddle, hquiet₁⟩ := readExact_take r.headerEof hquiet henough
  rw [hitems, ← hheader, List.take_left] at hread₁
  rw [hitems, ← hheader, List.drop_left] at hmiddle
  have hbody : body.length ≤ (items middle).length := by
    rw [hmiddle]
    simp
  obtain ⟨last, hread₂, hlast, hquiet₂⟩ :=
    readExact_take (r.bodyEof body.length) hquiet₁ hbody
  rw [hmiddle, List.take_left] at hread₂
  rw [hmiddle, List.drop_left] at hlast
  refine ⟨last, ?_, hlast, hquiet₂⟩
  unfold read
  rw [← hheader, hread₁]
  simp only [hlength, hread₂, hdecode]

theorem read_cut {arrivals : List (Arrival α)} {value : β} {frame : List α}
    (h : IsFrame r value frame) (hquiet : r.Quiet arrivals) (hitems : items arrivals <+: frame)
    (hne : items arrivals ≠ frame) :
    r.read arrivals = .error (r.cut frame.length (items arrivals).length) := by
  obtain ⟨header, body, rfl, hheader, hlength, -⟩ := h.split
  obtain ⟨missing, hmissing⟩ := hitems
  have hshort : (items arrivals).length < (header ++ body).length := by
    rcases missing with - | ⟨m, ms⟩
    · exact absurd (by simpa using hmissing) hne
    · rw [← hmissing]
      simp
  unfold read cut
  by_cases hin : (items arrivals).length < r.headerSize
  · rw [if_pos hin, readExact_eof r.headerEof hquiet hin]
  · rw [if_neg hin]
    have htake : (items arrivals).take r.headerSize = header := by
      have hboth : ((items arrivals) ++ missing).take r.headerSize = header := by
        rw [hmissing, ← hheader, List.take_left]
      rwa [List.take_append_of_le_length (by omega)] at hboth
    obtain ⟨middle, hread₁, hmiddle, hquiet₁⟩ :=
      readExact_take r.headerEof hquiet (Nat.le_of_not_lt hin)
    rw [htake] at hread₁
    have hrest : (items middle).length = (items arrivals).length - r.headerSize := by
      rw [hmiddle, List.length_drop]
    rw [List.length_append] at hshort
    have hread₂ : r.readExact (r.bodyEof body.length) body.length [] middle =
        .error (r.bodyEof body.length (items middle).length) :=
      readExact_eof (r.bodyEof body.length) hquiet₁ (by omega)
    have hsize : (header ++ body).length - r.headerSize = body.length := by
      rw [List.length_append]
      omega
    rw [hread₁]
    simp only [hlength, hread₂, hrest, hsize]

/-! ## Lists of frames -/

/-- The end of the stream inside a frame, or between two. -/
def IsCut (r : Reader α β ε) (tail : List α) : Prop :=
  tail = [] ∨ ∃ value frame, IsFrame r value frame ∧ tail <+: frame ∧ tail ≠ frame

theorem read_end (hheader : 0 < r.headerSize) {arrivals : List (Arrival α)}
    (hquiet : r.Quiet arrivals) (hcut : IsCut r (items arrivals)) :
    ∃ size, r.read arrivals = .error (r.cut size (items arrivals).length) := by
  rcases hcut with hnil | ⟨value, frame, hframe, hitems, hne⟩
  · refine ⟨0, ?_⟩
    have hlen : (items arrivals).length = 0 := by rw [hnil]; rfl
    unfold read cut
    rw [readExact_eof r.headerEof hquiet (by rw [hlen]; exact hheader), hlen, if_pos hheader]
  · exact ⟨frame.length, read_cut hframe hquiet hitems hne⟩

theorem readLoop_frames (hheader : 0 < r.headerSize) {values : List β} {frames : List (List α)}
    (h : List.Forall₂ (IsFrame r) values frames) {tail : List α} (hcut : IsCut r tail) :
    ∀ {fuel : Nat} {arrivals : List (Arrival α)}, values.length < fuel → r.Quiet arrivals →
      items arrivals = frames.flatten ++ tail →
        ∃ size, r.readLoop fuel arrivals = (values, some (r.cut size tail.length)) := by
  induction h with
  | nil =>
    intro fuel arrivals hfuel hquiet hitems
    have htail : items arrivals = tail := by simpa using hitems
    obtain ⟨size, hread⟩ := read_end hheader hquiet (by rw [htail]; exact hcut)
    obtain ⟨fuel, rfl⟩ := Nat.exists_eq_succ_of_ne_zero (Nat.ne_of_gt hfuel)
    refine ⟨size, ?_⟩
    rw [readLoop, hread, htail]
  | @cons value frame values frames hframe hframes ih =>
    intro fuel arrivals hfuel hquiet hitems
    rw [List.flatten_cons, List.append_assoc] at hitems
    obtain ⟨later, hread, hlater, hquiet'⟩ := read_frame hframe hquiet hitems
    obtain ⟨fuel, rfl⟩ := Nat.exists_eq_succ_of_ne_zero (Nat.ne_of_gt (Nat.zero_lt_of_lt hfuel))
    obtain ⟨size, hloop⟩ := ih (Nat.lt_of_succ_lt_succ hfuel) hquiet' hlater
    refine ⟨size, ?_⟩
    rw [readLoop, hread]
    simp only [hloop]

theorem length_le_flatten (hheader : 0 < r.headerSize) {values : List β}
    {frames : List (List α)} (h : List.Forall₂ (IsFrame r) values frames) :
    values.length ≤ frames.flatten.length := by
  induction h with
  | nil => exact Nat.le_refl 0
  | cons hframe hframes ih =>
    obtain ⟨header, body, rfl, hlen, -⟩ := hframe.split
    rw [List.flatten_cons, List.length_append, List.length_append, List.length_cons]
    omega

/-- **Frames are read back**, however they arrive. -/
theorem readAll_frames (hheader : 0 < r.headerSize) {values : List β} {frames : List (List α)}
    (h : List.Forall₂ (IsFrame r) values frames) {arrivals : List (Arrival α)}
    (hquiet : r.Quiet arrivals) (hitems : items arrivals = frames.flatten) :
    r.readAll arrivals = (values, some (r.headerEof 0)) := by
  have hfuel : values.length < (items arrivals).length + 1 := by
    have hle := length_le_flatten hheader h
    rw [hitems]
    omega
  have hcut : IsCut r [] := .inl rfl
  obtain ⟨size, hloop⟩ := readLoop_frames hheader h hcut hfuel hquiet
    (by rw [hitems, List.append_nil])
  unfold readAll
  rw [hloop, cut, if_pos (by exact hheader)]
  rfl

/-- Where a strict prefix of a list of frames ends. -/
theorem prefix_flatten {frames : List (List α)} : ∀ {pre : List α}, pre <+: frames.flatten →
    pre ≠ frames.flatten → ∃ k tail frame, frames[k]? = some frame ∧ tail <+: frame ∧
      tail ≠ frame ∧ pre = (frames.take k).flatten ++ tail := by
  induction frames with
  | nil =>
    intro pre hpre hne
    exact absurd (List.prefix_nil.mp hpre) hne
  | cons frame frames ih =>
    intro pre hpre hne
    rw [List.flatten_cons] at hpre hne
    rcases Nat.lt_or_ge pre.length frame.length with hlt | hge
    · refine ⟨0, pre, frame, rfl, ?_, ?_, rfl⟩
      · exact List.prefix_of_prefix_length_le hpre (List.prefix_append frame _) (Nat.le_of_lt hlt)
      · rintro rfl
        exact Nat.lt_irrefl _ hlt
    · obtain ⟨rest, rfl⟩ :=
        List.prefix_of_prefix_length_le (List.prefix_append frame frames.flatten) hpre hge
      have hrest : rest <+: frames.flatten := (List.prefix_append_right_inj frame).mp hpre
      obtain ⟨k, tail, last, hk, htail, hcut, hpre'⟩ := ih hrest (fun h => hne (by rw [h]))
      refine ⟨k + 1, tail, last, hk, htail, hcut, ?_⟩
      rw [List.take_succ_cons, List.flatten_cons, List.append_assoc, ← hpre']

/-- **A strict prefix gives the frames it contains and then an error.** -/
theorem readAll_prefix (hheader : 0 < r.headerSize) {values : List β} {frames : List (List α)}
    (h : List.Forall₂ (IsFrame r) values frames) {arrivals : List (Arrival α)}
    (hquiet : r.Quiet arrivals) (hpre : items arrivals <+: frames.flatten)
    (hne : items arrivals ≠ frames.flatten) :
    ∃ k e, k < values.length ∧ r.readAll arrivals = (values.take k, some e) ∧
      (frames.take k).flatten <+: items arrivals ∧
      (items arrivals).length < (frames.take (k + 1)).flatten.length := by
  obtain ⟨k, tail, frame, hk, htail, hcut, hitems⟩ := prefix_flatten hpre hne
  have hframe : k < frames.length := (List.getElem?_eq_some_iff.mp hk).1
  have hlen : k < values.length := by rw [h.length_eq]; exact hframe
  have hvalue : IsFrame r values[k] frame := by
    have hboth := (List.forall₂_iff_get.mp h).2 k hlen hframe
    simpa [(List.getElem?_eq_some_iff.mp hk).2] using hboth
  have htaken : List.Forall₂ (IsFrame r) (values.take k) (frames.take k) := List.forall₂_take k h
  have hfuel : (values.take k).length < (items arrivals).length + 1 := by
    have hle := length_le_flatten hheader htaken
    rw [hitems, List.length_append]
    omega
  obtain ⟨size, hloop⟩ := readLoop_frames hheader htaken (.inr ⟨_, frame, hvalue, htail, hcut⟩)
    hfuel hquiet hitems
  refine ⟨k, r.cut size tail.length, hlen, hloop, ⟨tail, hitems.symm⟩, ?_⟩
  have hshort : tail.length < frame.length := by
    obtain ⟨missing, rfl⟩ := htail
    rcases missing with - | ⟨m, ms⟩
    · exact absurd (List.append_nil tail).symm hcut
    · simp
  rw [hitems, List.take_add_one, hk, List.flatten_append, List.length_append, List.length_append]
  simpa using hshort

end Reader

end TuxStack.Frames
