import Rtaco.Netlink.MessageLoop

/-!
# Safety of the message loop

The loop stays inside the received bytes unless it steps over a complete message
whose padding was not received: then the counter wraps.
-/

namespace Rtaco.Netlink

open Scan

universe u v

variable {State : Type u} {Result : Type v}

/-- The loop variables at each evaluation of the loop condition. -/
def visits (handle : State → Bytes → State × Option Result) (memory : Bytes) :
    Nat → State → Cursor → List Cursor
  | 0, _, _ => []
  | fuel + 1, state, cursor =>
      cursor ::
        if cursor.Continues memory then
          match handle state (memory.drop cursor.header) with
          | (_, some _) => []
          | (next, none) => visits handle memory fuel next (cursor.next memory)
        else []

/-- The message handed on at a cursor. -/
def handed? (memory : Bytes) (cursor : Cursor) : Option Bytes :=
  if cursor.Continues memory then
    some ((memory.drop cursor.header).take (nlmsgLen (memory.drop cursor.header)))
  else none

/-- The walk over a received datagram with other bytes behind it in the buffer. -/
structure Contained (handle : State → Bytes → State × Option Result) (data stale : Bytes)
    (state : State) (cursors : List Cursor) : Prop where
  terminates : walkMessages handle (data ++ stale) data.length state ≠ .diverged
  bounded : ∀ cursor ∈ cursors, cursor.remaining ≤ data.length
  headers : ∀ cursor ∈ cursors, sizeofNlmsghdr ≤ cursor.remaining →
    cursor.header + sizeofNlmsghdr ≤ data.length
  messages : ∀ cursor ∈ cursors, cursor.Continues (data ++ stale) →
    cursor.header + nlmsgLen ((data ++ stale).drop cursor.header) ≤ data.length

/-- For every earlier content of the buffer the loop ends, stays inside the
received bytes, and hands on messages that are a function of those alone. -/
def LoopSafe (handle : State → Bytes → State × Option Result) (capacity : Nat)
    (data : Bytes) : Prop :=
  ∃ handed : List Bytes, ∀ (stale : Bytes) (state : State), (data ++ stale).length = capacity →
    let cursors := visits handle (data ++ stale) (capacity + 1) state (.start data.length)
    Contained handle data stale state cursors ∧
      cursors.filterMap (handed? (data ++ stale)) = handed

/-- Whether the handler ends the loop is decided by the message alone. -/
def ExitsOn (handle : State → Bytes → State × Option Result) (exits : Bytes → Prop) : Prop :=
  ∀ (message : Message) (behind : Bytes) (state : State), message.bytes.length < 2 ^ 31 →
    ((handle state (message.bytes ++ behind)).2.isSome ↔ exits message.bytes)

/-- The datagram ends with a complete message without its padding, and no message
up to and including that one ends the loop. -/
def Overruns (exits : Bytes → Prop) (data : Bytes) : Prop :=
  ∃ (messages : List Message) (rest : Bytes), data = Records.Format.encode messages ++ rest ∧
    messageFormat.Dangles rest ∧ (∀ message ∈ messages, ¬ exits message.bytes) ∧
    ¬ exits (rest.take (nlmsgLen rest))

/-- The cursors at the messages of a stream that starts at an offset, in front of
a tail. -/
def boundaries (offset : Nat) (tail : Bytes) : List Message → List Cursor
  | [] => []
  | message :: messages =>
      ⟨offset, (Records.Format.encode (message :: messages) ++ tail).length⟩ ::
        boundaries (offset + message.encode.length) tail messages

theorem mem_boundaries {messages : List Message} {offset : Nat} {tail : Bytes} {cursor : Cursor}
    (member : cursor ∈ boundaries offset tail messages) :
    ∃ before after : List Message, messages = before ++ after ∧
      cursor = ⟨offset + (Records.Format.encode before).length,
        (Records.Format.encode after ++ tail).length⟩ := by
  induction messages generalizing offset with
  | nil => simp [boundaries] at member
  | cons message messages inductionHypothesis =>
      rcases List.mem_cons.mp member with rfl | member
      · exact ⟨[], message :: messages, rfl, by simp⟩
      · obtain ⟨before, after, split, placed⟩ := inductionHypothesis member
        refine ⟨message :: before, after, by rw [split]; rfl, ?_⟩
        rw [placed, Cursor.mk.injEq, Records.Format.encode_cons]
        refine ⟨?_, rfl⟩
        rw [List.length_append, Nat.add_assoc]

section Walk

variable {handle : State → Bytes → State × Option Result} {exits : Bytes → Prop}

theorem loop_quiet (exitsOn : ExitsOn handle exits) {messages : List Message}
    (quiet : ∀ message ∈ messages, ¬ exits message.bytes) (front rest stale : Bytes)
    (fuel : Nat) (state : State)
    (small : (Records.Format.encode messages ++ rest).length < 2 ^ 31) :
    let memory := front ++ (Records.Format.encode messages ++ (rest ++ stale))
    let start : Cursor := ⟨front.length, (Records.Format.encode messages ++ rest).length⟩
    let finish : Cursor := ⟨(front ++ Records.Format.encode messages).length, rest.length⟩
    ∃ next,
      messageLoop handle memory (fuel + messages.length) state start =
        messageLoop handle memory fuel next finish ∧
      visits handle memory (fuel + messages.length) state start =
        boundaries front.length rest messages ++ visits handle memory fuel next finish := by
  induction messages generalizing front state with
  | nil => exact ⟨state, by simp, by simp [boundaries]⟩
  | cons message messages inductionHypothesis =>
      intro memory start finish
      have inside : message.bytes.length ≤ message.encode.length := by
        simp [Records.Format.Record.encode]
      have total : (Records.Format.encode (message :: messages) ++ rest).length =
          message.encode.length + (Records.Format.encode messages ++ rest).length := by
        simp
      have fits : message.encode.length ≤
          (Records.Format.encode (message :: messages) ++ rest).length := by omega
      have memoryEq : memory = front ++ (message.encode ++
          (Records.Format.encode messages ++ (rest ++ stale))) := by
        simp [memory]
      have moved : memory = (front ++ message.encode) ++
          (Records.Format.encode messages ++ (rest ++ stale)) := by
        simp [memory]
      obtain ⟨continues, advanced⟩ := cursor_on_message front
        (Records.Format.encode messages ++ (rest ++ stale)) message fits (by omega)
      rw [← memoryEq] at continues advanced
      have here : memory.drop front.length = message.bytes ++ (message.padding ++
          (Records.Format.encode messages ++ (rest ++ stale))) := by
        simp [memory, Records.Format.Record.encode]
      have stays := (exitsOn message (message.padding ++
        (Records.Format.encode messages ++ (rest ++ stale))) state (by omega)).not.mpr
          (quiet message (by simp))
      rw [← here, Option.not_isSome_iff_eq_none] at stays
      rcases handled : handle state (memory.drop front.length) with ⟨after, result⟩
      rw [handled] at stays
      cases stays
      have placed : start.next memory =
          ⟨(front ++ message.encode).length, (Records.Format.encode messages ++ rest).length⟩ := by
        rw [advanced, Cursor.mk.injEq]
        exact ⟨List.length_append.symm, by omega⟩
      obtain ⟨next, looped, visited⟩ := inductionHypothesis
        (fun other member => quiet other (List.mem_cons_of_mem _ member))
        (front ++ message.encode) after (by omega)
      rw [← moved, ← placed] at looped visited
      have finishEq : (⟨(front ++ message.encode ++ Records.Format.encode messages).length,
          rest.length⟩ : Cursor) = finish := by
        simp [finish]
      rw [finishEq] at looped visited
      refine ⟨next, ?_, ?_⟩
      · rw [List.length_cons, ← Nat.add_assoc, messageLoop, if_pos continues, handled]
        exact looped
      · rw [List.length_cons, ← Nat.add_assoc, visits, if_pos continues, handled, boundaries,
          List.cons_append]
        congr 1
        rw [← List.length_append]
        exact visited

/-- The complete message at the front of a tail. -/
def Message.cut (rest : Bytes) (fits : messageFormat.Fits rest) : Message where
  bytes := rest.take (nlmsgLen rest)
  padding := List.replicate (messageFormat.round (rest.take (nlmsgLen rest)).length -
    (rest.take (nlmsgLen rest)).length) 0
  header_le := by rw [List.length_take]; exact Nat.le_min.mpr ⟨fits.2.1, fits.1⟩
  size_eq := by
    have whole : nlmsgLen rest ≤ rest.length := fits.2.2
    rw [List.length_take, Nat.min_eq_left whole]
    exact Records.Format.size_take rest fits
  padding_length := List.length_replicate

/-- At a complete message the loop leaves exactly when the message ends it. -/
theorem exits_at_rest (exitsOn : ExitsOn handle exits) {rest : Bytes}
    (fits : messageFormat.Fits rest) (short : rest.length < 2 ^ 31) (stale : Bytes)
    (state : State) :
    (handle state (rest ++ stale)).2.isSome ↔ exits (rest.take (nlmsgLen rest)) := by
  have split : rest ++ stale =
      (Message.cut rest fits).bytes ++ (rest.drop (nlmsgLen rest) ++ stale) := by
    rw [← List.append_assoc]
    exact congrArg (· ++ stale) (List.take_append_drop _ _).symm
  have covered : (Message.cut rest fits).bytes.length < 2 ^ 31 := by
    have bound : (rest.take (nlmsgLen rest)).length ≤ rest.length :=
      List.length_take_le' _ _
    exact lt_of_le_of_lt bound short
  rw [split]
  exact exitsOn (Message.cut rest fits) _ state covered

theorem walk_quiet (exitsOn : ExitsOn handle exits) {messages : List Message}
    (quiet : ∀ message ∈ messages, ¬ exits message.bytes) (rest stale : Bytes) (fuel : Nat)
    (state : State) (small : (Records.Format.encode messages ++ rest).length < 2 ^ 31) :
    let memory := Records.Format.encode messages ++ rest ++ stale
    let start := Cursor.start (Records.Format.encode messages ++ rest).length
    let finish : Cursor := ⟨(Records.Format.encode messages).length, rest.length⟩
    ∃ next,
      messageLoop handle memory (fuel + messages.length) state start =
        messageLoop handle memory fuel next finish ∧
      visits handle memory (fuel + messages.length) state start =
        boundaries 0 rest messages ++ visits handle memory fuel next finish := by
  have walked := loop_quiet exitsOn quiet [] rest stale fuel state small
  have start : Cursor.start (Records.Format.encode messages ++ rest).length =
      ⟨0, (Records.Format.encode messages ++ rest).length⟩ := by
    rw [Cursor.start, Nat.mod_eq_of_lt (by omega)]
  rw [start, List.append_assoc]
  exact walked

theorem continues_at_rest (messages : List Message) (rest stale : Bytes) :
    (⟨(Records.Format.encode messages).length, rest.length⟩ : Cursor).Continues
        (Records.Format.encode messages ++ rest ++ stale) ↔ messageFormat.Fits rest := by
  rw [List.append_assoc]
  exact cursor_on_rest

theorem drop_at_rest (messages : List Message) (rest stale : Bytes) :
    (Records.Format.encode messages ++ rest ++ stale).drop (Records.Format.encode messages).length =
      rest ++ stale := by
  rw [List.append_assoc, List.drop_left']
  rfl

theorem visits_of_stop (exitsOn : ExitsOn handle exits) {messages : List Message} {rest : Bytes}
    (quiet : ∀ message ∈ messages, ¬ exits message.bytes)
    (stops : ¬ messageFormat.Fits rest ∨
      messageFormat.Fits rest ∧ exits (rest.take (nlmsgLen rest)))
    (small : (Records.Format.encode messages ++ rest).length < 2 ^ 31) (stale : Bytes)
    (state : State) :
    let data := Records.Format.encode messages ++ rest
    walkMessages handle (data ++ stale) data.length state ≠ .diverged ∧
      visits handle (data ++ stale) ((data ++ stale).length + 1) state (.start data.length) =
        boundaries 0 rest messages ++ [⟨(Records.Format.encode messages).length, rest.length⟩] := by
  intro data
  obtain ⟨spare, fuel⟩ : ∃ spare, (data ++ stale).length + 1 = spare + 1 + messages.length := by
    have enough := length_le_length_encode messages
    refine ⟨(data ++ stale).length - messages.length, ?_⟩
    simp only [data, List.length_append]
    omega
  obtain ⟨next, looped, visited⟩ := walk_quiet exitsOn quiet rest stale (spare + 1) state small
  rw [walkMessages, fuel]
  refine ⟨?_, ?_⟩
  · rw [looped, messageLoop, drop_at_rest]
    rcases stops with unfit | ⟨fits, stopped⟩
    · rw [if_neg ((continues_at_rest messages rest stale).not.mpr unfit)]
      simp
    · rw [if_pos ((continues_at_rest messages rest stale).mpr fits)]
      have exited := (exits_at_rest exitsOn fits (by simp at small; omega) stale next).mpr stopped
      rcases handled : handle next (rest ++ stale) with ⟨after, _ | result⟩
      · simp [handled] at exited
      · simp
  · rw [visited, visits, drop_at_rest]
    congr 2
    rcases stops with unfit | ⟨fits, stopped⟩
    · rw [if_neg ((continues_at_rest messages rest stale).not.mpr unfit)]
    · rw [if_pos ((continues_at_rest messages rest stale).mpr fits)]
      have exited := (exits_at_rest exitsOn fits (by simp at small; omega) stale next).mpr stopped
      rcases handled : handle next (rest ++ stale) with ⟨after, _ | result⟩
      · simp [handled] at exited
      · rfl

/-- A loop that overruns its datagram reaches a wrapped counter. -/
theorem wraps_of_overrun (exitsOn : ExitsOn handle exits) {messages : List Message} {rest : Bytes}
    (quiet : ∀ message ∈ messages, ¬ exits message.bytes) (dangles : messageFormat.Dangles rest)
    (passes : ¬ exits (rest.take (nlmsgLen rest)))
    (small : (Records.Format.encode messages ++ rest).length < 2 ^ 31) (stale : Bytes)
    (state : State) :
    let data := Records.Format.encode messages ++ rest
    ∃ cursor ∈ visits handle (data ++ stale) ((data ++ stale).length + 1) state
      (.start data.length), 2 ^ 31 ≤ cursor.remaining := by
  intro data
  have short : rest.length < 2 ^ 31 := by
    rw [List.length_append] at small
    omega
  obtain ⟨spare, fuel⟩ : ∃ spare, (data ++ stale).length + 1 = spare + 1 + 1 + messages.length := by
    have enough := length_le_length_encode messages
    have header : 16 ≤ rest.length := dangles.1.1
    refine ⟨(data ++ stale).length - messages.length - 1, ?_⟩
    simp only [data, List.length_append]
    omega
  obtain ⟨next, -, visited⟩ := walk_quiet exitsOn quiet rest stale (spare + 1 + 1) state small
  have stays := (exits_at_rest exitsOn dangles.1 short stale next).not.mpr passes
  rcases handled : handle next (rest ++ stale) with ⟨after, _ | result⟩
  · rw [fuel, visited]
    refine ⟨(⟨(Records.Format.encode messages).length, rest.length⟩ : Cursor).next
      (data ++ stale), ?_, ?_⟩
    · apply List.mem_append_right
      rw [visits, if_pos ((continues_at_rest messages rest stale).mpr dangles.1), drop_at_rest,
        handled]
      apply List.mem_cons_of_mem
      change _ ∈ visits handle _ (spare + 1) after _
      rw [visits]
      exact List.mem_cons_self
    · simp only [data, List.append_assoc]
      exact cursor_wraps dangles short
  · simp [handled] at stays

theorem handed?_at_rest (messages : List Message) (rest stale : Bytes) :
    handed? (Records.Format.encode messages ++ rest ++ stale)
        ⟨(Records.Format.encode messages).length, rest.length⟩ =
      if messageFormat.Fits rest then some (rest.take (nlmsgLen rest)) else none := by
  unfold handed?
  by_cases fits : messageFormat.Fits rest
  · have whole : nlmsgLen rest ≤ rest.length := fits.2.2
    rw [if_pos ((continues_at_rest messages rest stale).mpr fits), if_pos fits, drop_at_rest,
      nlmsgLen_append stale fits.1, List.take_append_of_le_length whole]
  · rw [if_neg ((continues_at_rest messages rest stale).not.mpr fits), if_neg fits]

theorem exists_tail {messages : List Message} {rest : Bytes} {cursor : Cursor}
    (member : cursor ∈ boundaries 0 rest messages ++
      [⟨(Records.Format.encode messages).length, rest.length⟩]) :
    ∃ (before : List Message) (tail : Bytes),
      Records.Format.encode messages ++ rest = Records.Format.encode before ++ tail ∧
        cursor = ⟨(Records.Format.encode before).length, tail.length⟩ := by
  rcases List.mem_append.mp member with member | member
  · obtain ⟨before, after, rfl, placed⟩ := mem_boundaries member
    refine ⟨before, Records.Format.encode after ++ rest, by simp, ?_⟩
    rw [placed, Nat.zero_add]
  · exact ⟨messages, rest, rfl, List.mem_singleton.mp member⟩

theorem loopSafe_of_stop (exitsOn : ExitsOn handle exits) {messages : List Message} {rest : Bytes}
    (quiet : ∀ message ∈ messages, ¬ exits message.bytes)
    (stops : ¬ messageFormat.Fits rest ∨
      messageFormat.Fits rest ∧ exits (rest.take (nlmsgLen rest)))
    (small : (Records.Format.encode messages ++ rest).length < 2 ^ 31) (capacity : Nat) :
    LoopSafe handle capacity (Records.Format.encode messages ++ rest) := by
  refine ⟨(boundaries 0 rest messages ++
    [(⟨(Records.Format.encode messages).length, rest.length⟩ : Cursor)]).filterMap
      (handed? (Records.Format.encode messages ++ rest ++ [])), ?_⟩
  rintro stale state rfl
  obtain ⟨terminates, visited⟩ := visits_of_stop exitsOn quiet stops small stale state
  simp only [visited]
  refine ⟨⟨terminates, ?_, ?_, ?_⟩, ?_⟩
  · intro cursor member
    obtain ⟨before, tail, split, rfl⟩ := exists_tail member
    rw [split, List.length_append]
    exact Nat.le_add_left _ _
  · intro cursor member header
    obtain ⟨before, tail, split, rfl⟩ := exists_tail member
    rw [split, List.length_append]
    exact Nat.add_le_add_left header _
  · intro cursor member continues
    obtain ⟨before, tail, split, rfl⟩ := exists_tail member
    rw [split] at continues ⊢
    have fits := (continues_at_rest before tail stale).mp continues
    rw [drop_at_rest, nlmsgLen_append stale fits.1, List.length_append]
    exact Nat.add_le_add_left fits.2.2 _
  · apply List.filterMap_congr
    intro cursor member
    obtain ⟨before, tail, split, rfl⟩ := exists_tail member
    rw [split, handed?_at_rest, handed?_at_rest]

/-- A loop is safe on a datagram exactly when it does not overrun it. -/
theorem loopSafe_iff [Nonempty State] (exitsOn : ExitsOn handle exits) {capacity : Nat}
    (small : capacity < 2 ^ 31) {data : Bytes} (fits : data.length ≤ capacity) :
    LoopSafe handle capacity data ↔ ¬ Overruns exits data := by
  constructor
  · rintro ⟨handed, safe⟩ ⟨messages, rest, rfl, dangles, quiet, passes⟩
    obtain ⟨state⟩ := ‹Nonempty State›
    have stale : (Records.Format.encode messages ++ rest ++
        List.replicate (capacity - (Records.Format.encode messages ++ rest).length) 0).length =
          capacity := by
      rw [List.length_append, List.length_replicate]
      omega
    obtain ⟨contained, -⟩ := safe _ state stale
    obtain ⟨cursor, member, wrapped⟩ := wraps_of_overrun exitsOn quiet dangles passes
      (lt_of_le_of_lt fits small)
      (List.replicate (capacity - (Records.Format.encode messages ++ rest).length) 0) state
    rw [stale] at member
    have bounded := contained.bounded cursor member
    omega
  · intro contained
    obtain ⟨messages, rest, rfl, quiet, ended⟩ :=
      @Records.Format.exists_stop _ messageFormat exits data
    rcases ended with unfit | stopped | ⟨dangles, passes⟩
    · exact loopSafe_of_stop exitsOn quiet (.inl unfit) (lt_of_le_of_lt fits small) capacity
    · exact loopSafe_of_stop exitsOn quiet (.inr stopped) (lt_of_le_of_lt fits small) capacity
    · exact absurd ⟨messages, rest, rfl, dangles, quiet, passes⟩ contained

end Walk

theorem not_overruns_of_aligned (exits : Bytes → Prop) {data : Bytes}
    (aligned : data.length % 4 = 0) : ¬ Overruns exits data := by
  rintro ⟨messages, rest, rfl, ⟨⟨-, -, inside⟩, short⟩, -, -⟩
  have inside : nlmsgLen rest ≤ rest.length := inside
  have short : rest.length < (nlmsgLen rest + 3) / 4 * 4 := short
  have padded : (Records.Format.encode messages).length % 4 = 0 := by
    clear aligned
    induction messages with
    | nil => rfl
    | cons message messages inductionHypothesis =>
        have whole : message.encode.length = (message.bytes.length + 3) / 4 * 4 :=
          message.length_encode
        rw [Records.Format.encode_cons, List.length_append]
        omega
  rw [List.length_append] at aligned
  omega

end Rtaco.Netlink
