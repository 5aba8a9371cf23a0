import Rtaco.Core.ListenerDelivery
import Rtaco.Events.EventContents

/-!
# The changes that the listener tells

The kernel announces a change of a table by a message. Over a whole run the signals of the listener,
read back, are the changes that the datagrams it handled announce.
-/

namespace Rtaco.Listener

open Netlink

/-- The message is no event, or too short for the structure of its kind. -/
def NoChange (message : Message) : Prop :=
  ∀ kind : EventKind, kind.Decodes (nlmsgType message.bytes) →
    nlmsgLen message.bytes < nlmsgLength kind.infoSize

instance (message : Message) : Decidable (NoChange message) :=
  inferInstanceAs (Decidable (∀ _ : EventKind, _ → _))

/-- A message that a listener receives: a change of a table, or one that stands for no change. -/
inductive Announcement where
  | change (kind : EventKind) (message : Message) (attrs : List Attribute)
      (carries : kind.Carries message attrs) (wellFormed : WellFormed message)
  | other (message : Message) (noChange : NoChange message)

namespace Announcement

def message : Announcement → Message
  | change _ message _ _ _ => message
  | other message _ => message

/-- The kind and the contents of the change. -/
def tells : Announcement → Option (EventKind × Contents)
  | change kind message attrs _ _ => some (kind, kind.contents message attrs)
  | other _ _ => none

theorem wellFormed (announcement : Announcement) : WellFormed announcement.message := by
  cases announcement with
  | change kind message attrs carries wellFormed => exact wellFormed
  | other message noChange =>
      intro kind decodes
      have none : attributes kind.infoSize message.bytes = [] :=
        EventKind.attributes_of_short (noChange kind decodes)
      constructor
      · rw [Announcement.message, none]
        nofun
      · rw [Announcement.message, none]
        nofun

end Announcement

/-- What a signal tells of the tables. -/
def readEmission : Emission → Option (EventKind × Contents)
  | .event kind event => some (kind, kind.readContents event)
  | .nlmsgerr _ _ => none

theorem readEmission_expected (announcement : Announcement)
    (short : announcement.message.bytes.length < 2 ^ 31) :
    (expected announcement.message.bytes).bind readEmission = announcement.tells := by
  cases announcement with
  | change kind message attrs carries wellFormed =>
      have read := EventKind.readContents_fromNlmsghdr carries short wellFormed
      have signal : expected message.bytes =
          some (.event kind (kind.fromNlmsghdr message.bytes)) := by
        rw [expected, kindOf_eq_some.mpr carries.decodes]
        exact if_pos carries.enough
      rw [Announcement.message, signal, Option.bind_some, readEmission, read, Announcement.tells]
  | other message noChange =>
      rw [Announcement.message, expected]
      cases found : kindOf (nlmsgType message.bytes) with
      | some kind =>
          have short := noChange kind (kindOf_eq_some.mp found)
          simp only [if_neg (Nat.not_le.mpr short)]
          rfl
      | none =>
          dsimp only
          split_ifs with error
          · rfl
          · rfl

/-- A datagram, and what the messages that the listener hears announce. -/
structure Bulletin where
  datagram : Datagram
  announcements : List Announcement
  hears : heard datagram = announcements.map Announcement.message

namespace Bulletin

def bytes (bulletin : Bulletin) : Bytes := bulletin.datagram.bytes

/-- The changes, in the order they are announced. -/
def changes (bulletin : Bulletin) : List (EventKind × Contents) :=
  bulletin.announcements.filterMap Announcement.tells

theorem readable (bulletin : Bulletin) : Readable bulletin.datagram := by
  intro message member
  rw [bulletin.hears] at member
  obtain ⟨announcement, -, rfl⟩ := List.mem_map.mp member
  exact announcement.wellFormed

theorem readEmission_signals (bulletin : Bulletin) :
    (signals bulletin.datagram).filterMap readEmission = bulletin.changes := by
  rw [signals, List.filterMap_filterMap, bulletin.hears, List.filterMap_map]
  apply List.filterMap_congr
  intro announcement member
  have inside : announcement.message ∈ heard bulletin.datagram := by
    rw [bulletin.hears]
    exact List.mem_map_of_mem member
  exact readEmission_expected announcement (short_of_mem_heard inside)

theorem readEmission_flatMap (bulletins : List Bulletin) :
    ((bulletins.map Bulletin.datagram).flatMap signals).filterMap readEmission =
      bulletins.flatMap changes := by
  induction bulletins with
  | nil => rfl
  | cons bulletin bulletins inductionHypothesis =>
      rw [List.map_cons, List.flatMap_cons, List.filterMap_append, inductionHypothesis,
        readEmission_signals, List.flatMap_cons]

end Bulletin

/-- In every run in which no slot throws and no receive completes while an earlier datagram is
walked or queued, the emitted signals read back as the changes of the datagrams that were handled,
each once and in order. Without a `stop` these are the first datagrams, and all of them when the
queue is empty. -/
theorem emissions_tell_changes {state finish : State} {labels : List Label}
    {bulletins : List Bulletin} (initial : state.Initial) (silent : state.emitted = [])
    (arrived : received labels = bulletins.map Bulletin.bytes)
    (returns : ∀ label ∈ labels, label ≠ .throwSlot)
    (alone : Machine.Allowed step CompletesAlone state labels)
    (reached : Machine.run step state labels = some finish) :
    ∃ handled : List Bulletin, handled.Sublist bulletins ∧
      finish.emitted.filterMap readEmission <+: handled.flatMap Bulletin.changes ∧
      (finish.activity = .idle →
        finish.emitted.filterMap readEmission = handled.flatMap Bulletin.changes) ∧
      (.stop ∉ labels → handled <+: bulletins ∧ (finish.queue = [] → handled = bulletins)) := by
  have readable : ∀ datagram ∈ bulletins.map Bulletin.datagram, Readable datagram := by
    intro datagram member
    obtain ⟨bulletin, -, rfl⟩ := List.mem_map.mp member
    exact bulletin.readable
  have received : received labels = (bulletins.map Bulletin.datagram).map Datagram.bytes := by
    rw [arrived, List.map_map]
    rfl
  obtain ⟨front, waiting, ahead, account⟩ :=
    account_of_run initial silent readable received returns alone reached
  -- The datagrams that are accounted for are those of some of the bulletins.
  obtain ⟨accounted, order, split⟩ := List.sublist_map_iff.mp account.order
  obtain ⟨handled, later, rfl, rfl, rfl⟩ := List.map_eq_append_iff.mp split.symm
  have tells := Bulletin.readEmission_flatMap handled
  refine ⟨handled, (List.sublist_append_left handled later).trans order, ?_, ?_, ?_⟩
  · rw [← tells, ← account.emitted]
    exact (List.prefix_append _ _).filterMap readEmission
  · intro idle
    rw [← tells, ← account.emitted_of_idle idle]
  · intro never
    have lengths := congrArg List.length (account.all never)
    rw [← List.map_append, List.length_map, List.length_map] at lengths
    obtain rfl := order.eq_of_length lengths
    refine ⟨List.prefix_append handled later, fun empty => ?_⟩
    have nothing := account.waiting_of_empty empty
    rw [List.map_eq_nil_iff.mp nothing, List.append_nil]

theorem small_bare : 16 + ([] : Bytes).length < 2 ^ 32 := by
  decide

/-- `RTM_NEWLINK` without its structure. -/
def bareLink : Message := Message.build rtmNewlink 0 0 0 [] small_bare

/-- A link, a message that is too short, a neighbor with its addresses, and a byte. -/
def mixedBulletin : Bulletin where
  datagram :=
    { messages := [loLink 0 0, bareLink, linkLocalMessage]
      rest := [7]
      ended := by decide }
  announcements :=
    [.change .link (loLink 0 0) loAttributes ⟨by decide, by decide, [0], by decide, by decide⟩
        (by decide),
      .other bareLink (by decide),
      .change .neighbor linkLocalMessage linkLocalAttributes
        ⟨by decide, by decide, [], by decide, by decide⟩ (by decide)]
  hears := rfl

def hearMixed : List Label :=
  [.setSlots (.event .link) 1, .start {}, .complete mixedBulletin.bytes, .runHandler, .advance,
    .enterSlot, .leaveSlot, .advance, .advance, .advance]

theorem emissions_tell_changes_hearMixed :
    ∃ finish, Machine.run step {} hearMixed = some finish ∧
      finish.emitted.filterMap readEmission = [(.link,
        { type := rtmNewlink, numbers := [1, 1, 0], names := [[108, 111]], addresses := [],
          lladdr := [] }), (.neighbor,
        { type := rtmNewneigh, numbers := [10, 3, 2, 0, 1], names := [],
          addresses := [some [0xfe, 0x80, 0, 0, 0, 0, 0, 0, 0, 0, 0, 0, 0, 0, 0, 1]],
          lladdr := [2, 0x5f, 0xa1] })] := by
  have returns : ∀ label ∈ hearMixed, label ≠ .throwSlot := by
    simp [hearMixed]
  have never : .stop ∉ hearMixed := by
    simp [hearMixed]
  have initial : State.Initial {} := ⟨rfl, rfl, rfl, rfl⟩
  have alone := completesAlone_of_never initial never
  have ends : (Machine.run step {} hearMixed).map (fun finish =>
      (finish.activity, finish.queue)) = some (.idle, []) := by
    decide +kernel
  obtain ⟨finish, reached, observed⟩ := Option.map_eq_some_iff.mp ends
  obtain ⟨idle, empty⟩ := Prod.mk.inj observed
  have arrived : received hearMixed = [mixedBulletin].map Bulletin.bytes := rfl
  obtain ⟨handled, -, -, told, kept⟩ :=
    emissions_tell_changes initial rfl arrived returns alone reached
  obtain rfl := (kept never).2 empty
  refine ⟨finish, reached, (told idle).trans ?_⟩
  decide +kernel

end Rtaco.Listener
