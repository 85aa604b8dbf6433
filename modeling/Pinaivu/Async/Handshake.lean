import Mathlib.Data.List.Nodup
import Mathlib.Logic.Function.Basic

namespace Async

variable {Client Ticket Channel : Type}

inductive Stance (Ticket Channel : Type) where
  | free
  | holding (t : Ticket)
  | waiting (t : Ticket)
  | joined (c : Channel)

def Stance.ticket : Stance Ticket Channel → Option Ticket
  | .holding t => some t
  | .waiting t => some t
  | _ => none

/-- Clients that hand in tickets, and a server that answers them in turn with a channel or without one.
    `given` is what the server is about to answer the first ticket with. -/
structure Handshake (Client Ticket Channel : Type) where
  stance : Client → Stance Ticket Channel
  drawn : Ticket → Prop
  transit : List Ticket
  given : Option Channel
  answers : Ticket → Option (Option Channel)
  abandoned : Ticket → Bool
  opened : Channel → Prop
  closed : Channel → Prop

namespace Handshake

structure Ages (h h' : Handshake Client Ticket Channel) : Prop where
  stance : h'.stance = h.stance
  drawn : ∀ t, h.drawn t → h'.drawn t
  transit : h'.transit = h.transit
  given : h'.given = h.given
  answers : h'.answers = h.answers
  abandoned : h'.abandoned = h.abandoned
  opened : ∀ c, h'.opened c → h.opened c
  closed : ∀ c, h.closed c → h'.closed c

def close (h : Handshake Client Ticket Channel) (c : Channel) : Handshake Client Ticket Channel :=
  { h with closed := fun other => other = c ∨ h.closed other }

/-- No ticket is in two hands, none is handed in twice, and every ticket handed in is waited for or
    abandoned; a channel still open has a client at it or about to get it. -/
structure Sound (h : Handshake Client Ticket Channel) : Prop where
  drawn : ∀ k t, (h.stance k).ticket = some t → h.drawn t
  alone : ∀ k j t, (h.stance k).ticket = some t → (h.stance j).ticket = some t → k = j
  transit_drawn : ∀ t ∈ h.transit, h.drawn t
  answers_drawn : ∀ t, h.answers t ≠ none → h.drawn t
  abandoned_drawn : ∀ t, h.abandoned t = true → h.drawn t
  kept : ∀ k t, (h.stance k).ticket = some t → h.abandoned t = false
  unused : ∀ k t, h.stance k = .holding t → t ∉ h.transit ∧ h.answers t = none
  once : h.transit.Nodup
  unanswered : ∀ t ∈ h.transit, h.answers t = none
  waited : ∀ t ∈ h.transit, h.abandoned t = true ∨ ∃ k, h.stance k = .waiting t
  waiting : ∀ k t, h.stance k = .waiting t → t ∈ h.transit ∨ h.answers t ≠ none
  attended : ∀ c, h.opened c → h.closed c ∨ (∃ k, h.stance k = .joined c) ∨
    (∃ k t, h.stance k = .waiting t ∧ h.answers t = some (some c)) ∨ h.given = some c

namespace Sound

variable {h h' : Handshake Client Ticket Channel} {k : Client} {t : Ticket} {c : Channel} {rest : List Ticket}

theorem ages (sound : Sound h) (ages : Ages h h') : Sound h' := by
  obtain ⟨stance, drawn, transit, given, answers, abandoned, opened, closed⟩ := ages
  constructor <;> simp only [stance, transit, given, answers, abandoned]
  · exact fun k t held => drawn t (sound.drawn k t held)
  · exact sound.alone
  · exact fun t member => drawn t (sound.transit_drawn t member)
  · exact fun t answered => drawn t (sound.answers_drawn t answered)
  · exact fun t absent => drawn t (sound.abandoned_drawn t absent)
  · exact sound.kept
  · exact sound.unused
  · exact sound.once
  · exact sound.unanswered
  · exact sound.waited
  · exact sound.waiting
  · exact fun c known => (sound.attended c (opened c known)).imp_left (closed c)

theorem close (sound : Sound h) (c : Channel) : Sound (h.close c) :=
  { sound with attended := fun other known => (sound.attended other known).imp_left .inr }

theorem take (sound : Sound h) (idle : h.given = none) (c : Channel) :
    Sound { h with given := some c, opened := fun other => other = c ∨ h.opened other } := by
  refine { sound with attended := fun other known => ?_ }
  rcases known with rfl | known
  · exact .inr (.inr (.inr rfl))
  · refine (sound.attended other known).imp_right fun seat => seat.imp_right fun later => later.imp_right fun gives => ?_
    rw [idle] at gives
    cases gives

theorem lose (sound : Sound h) (first : h.transit = t :: rest) (gives : h.given = some c)
    (absent : h.abandoned t = true) : Sound { h.close c with transit := rest, given := none } := by
  have unheld : ∀ j, (h.stance j).ticket ≠ some t := by
    intro j held
    rw [sound.kept j t held] at absent
    cases absent
  have once := first ▸ sound.once
  rw [List.nodup_cons] at once
  obtain ⟨drawn, alone, transit_drawn, answers_drawn, abandoned_drawn, kept, unused, _, unanswered, waited, waiting,
    attended⟩ := sound
  rw [first] at transit_drawn unused unanswered waited waiting
  constructor <;> simp only [Handshake.close] <;> grind [Stance.ticket]

section

variable [DecidableEq Ticket]

theorem answer (sound : Sound h) (first : h.transit = t :: rest)
    (present : h.abandoned t = false ∨ h.given = none) :
    Sound { h with transit := rest, given := none, answers := Function.update h.answers t (some h.given) } := by
  have member : t ∈ h.transit := by rw [first]; exact List.mem_cons_self
  have silent := sound.unanswered t member
  have ready := sound.transit_drawn t member
  have waiter := sound.waited t member
  have once := first ▸ sound.once
  rw [List.nodup_cons] at once
  obtain ⟨drawn, alone, transit_drawn, answers_drawn, abandoned_drawn, kept, unused, _, unanswered, waited, waiting,
    attended⟩ := sound
  rw [first] at transit_drawn unused unanswered waited waiting
  constructor <;> simp only [Function.update_apply] <;> grind [Stance.ticket]

end

end Sound

variable [DecidableEq Client]

def moveTo (h : Handshake Client Ticket Channel) (k : Client) (s : Stance Ticket Channel) :
    Handshake Client Ticket Channel :=
  { h with stance := Function.update h.stance k s }

namespace Sound

variable {h h' : Handshake Client Ticket Channel} {k : Client} {t : Ticket}

theorem settle (sound : Sound h) {s : Stance Ticket Channel} (ticketless : s.ticket = none)
    (answered : ∀ t, h.stance k = .waiting t → h.answers t ≠ none)
    (seat : ∀ c, h.stance k = .joined c ∨ (∃ t, h.stance k = .waiting t ∧ h.answers t = some (some c)) →
      h.closed c ∨ s = .joined c) : Sound (h.moveTo k s) := by
  have moved (j : Client) : (h.moveTo k s).stance j = if j = k then s else h.stance j := Function.update_apply _ _ _ _
  have held {j : Client} {t : Ticket} (holds : ((h.moveTo k s).stance j).ticket = some t) :
      j ≠ k ∧ (h.stance j).ticket = some t := by
    rw [moved] at holds
    split at holds
    · rw [ticketless] at holds
      cases holds
    · rename_i other
      exact ⟨other, holds⟩
  have stands {j : Client} {s' : Stance Ticket Channel} (at_ticket : s'.ticket ≠ none)
      (stands : (h.moveTo k s).stance j = s') : h.stance j = s' := by
    rw [moved] at stands
    split at stands
    · rw [← stands, ticketless] at at_ticket
      exact absurd rfl at_ticket
    · exact stands
  refine { sound with
    drawn := fun j t holds => sound.drawn j t (held holds).2
    alone := fun j i t left right => sound.alone j i t (held left).2 (held right).2
    kept := fun j t holds => sound.kept j t (held holds).2
    unused := fun j t holds => sound.unused j t (stands nofun holds)
    waited := fun t member => (sound.waited t member).imp_right ?_
    waiting := fun j t waits => sound.waiting j t (stands nofun waits)
    attended := fun c known => ?_ }
  · intro given
    obtain ⟨j, waits⟩ := given
    have apart : j ≠ k := by
      intro same
      subst same
      exact answered t waits (sound.unanswered t member)
    exact ⟨j, by rw [moved, if_neg apart, waits]⟩
  · have stays {j : Client} (apart : j ≠ k) : (h.moveTo k s).stance j = h.stance j := by rw [moved, if_neg apart]
    have seated (own : h.closed c ∨ s = .joined c) : h.closed c ∨ ∃ j, (h.moveTo k s).stance j = .joined c :=
      own.imp_right fun same => ⟨k, by rw [moved, if_pos rfl, same]⟩
    rcases sound.attended c known with closed | ⟨j, has⟩ | ⟨j, t, waits, answer⟩ | gives
    · exact .inl closed
    · by_cases own : j = k
      · exact (seated (seat c (.inl (own ▸ has)))).imp_right .inl
      · exact .inr (.inl ⟨j, (stays own).trans has⟩)
    · by_cases own : j = k
      · exact (seated (seat c (.inr ⟨t, own ▸ waits, answer⟩))).imp_right .inl
      · exact .inr (.inr (.inl ⟨j, t, (stays own).trans waits, answer⟩))
    · exact .inr (.inr (.inr gives))

theorem draw (sound : Sound h) (free : h.stance k = .free) (fresh : ¬ h.drawn t) :
    Sound { h.moveTo k (.holding t) with drawn := fun other => other = t ∨ h.drawn other } := by
  have unheld : ∀ j, (h.stance j).ticket ≠ some t := fun j held => fresh (sound.drawn j t held)
  have outside : t ∉ h.transit := fun member => fresh (sound.transit_drawn t member)
  have silent : h.answers t = none := Classical.byContradiction fun some => fresh (sound.answers_drawn t some)
  have present : h.abandoned t ≠ true := fun absent => fresh (sound.abandoned_drawn t absent)
  obtain ⟨drawn, alone, transit_drawn, answers_drawn, abandoned_drawn, kept, unused, once, unanswered, waited,
    waiting, attended⟩ := sound
  constructor <;> simp only [moveTo, Function.update_apply] <;> grind [Stance.ticket]

theorem hand (sound : Sound h) (holds : h.stance k = .holding t) :
    Sound { h.moveTo k (.waiting t) with transit := h.transit ++ [t] } := by
  have held : (h.stance k).ticket = some t := by rw [holds, Stance.ticket]
  have others : ∀ j, j ≠ k → (h.stance j).ticket ≠ some t := fun j apart also => apart (sound.alone j k t also held)
  obtain ⟨outside, silent⟩ := sound.unused k t holds
  have ready := sound.drawn k t held
  have present := sound.kept k t held
  obtain ⟨drawn, alone, transit_drawn, answers_drawn, abandoned_drawn, kept, unused, once, unanswered, waited,
    waiting, attended⟩ := sound
  constructor <;> simp only [moveTo, Function.update_apply] <;> grind [Stance.ticket]

end Sound

variable [DecidableEq Ticket]

/-- One move of a client or of the server. A client may go away at any point: the channel it has, or has
    been answered with, is closed; a ticket still without a channel is abandoned, and a channel that is
    answered to it later is closed at once. -/
inductive Move : Handshake Client Ticket Channel → Handshake Client Ticket Channel → Prop where
  | rest {h : Handshake Client Ticket Channel} : Move h h
  | draw {h : Handshake Client Ticket Channel} {k : Client} {t : Ticket} (free : h.stance k = .free)
      (fresh : ¬ h.drawn t) :
      Move h { h.moveTo k (.holding t) with drawn := fun other => other = t ∨ h.drawn other }
  | hand {h : Handshake Client Ticket Channel} {k : Client} {t : Ticket} (holds : h.stance k = .holding t) :
      Move h { h.moveTo k (.waiting t) with transit := h.transit ++ [t] }
  | discard {h : Handshake Client Ticket Channel} {k : Client} {t : Ticket}
      (holds : h.stance k = .holding t) : Move h (h.moveTo k .free)
  | take {h : Handshake Client Ticket Channel} {t : Ticket} {rest : List Ticket} {c : Channel}
      (first : h.transit = t :: rest) (idle : h.given = none) :
      Move h { h with given := some c, opened := fun other => other = c ∨ h.opened other }
  | answer {h : Handshake Client Ticket Channel} {t : Ticket} {rest : List Ticket}
      (first : h.transit = t :: rest) (present : h.abandoned t = false ∨ h.given = none) :
      Move h { h with transit := rest, given := none, answers := Function.update h.answers t (some h.given) }
  | lose {h : Handshake Client Ticket Channel} {t : Ticket} {rest : List Ticket} {c : Channel}
      (first : h.transit = t :: rest) (gives : h.given = some c) (absent : h.abandoned t = true) :
      Move h { h.close c with transit := rest, given := none }
  | join {h : Handshake Client Ticket Channel} {k : Client} {t : Ticket} {c : Channel}
      (waits : h.stance k = .waiting t) (answered : h.answers t = some (some c)) :
      Move h (h.moveTo k (.joined c))
  | refuse {h : Handshake Client Ticket Channel} {k : Client} {t : Ticket} (waits : h.stance k = .waiting t)
      (answered : h.answers t = some none) : Move h (h.moveTo k .free)
  | leave {h : Handshake Client Ticket Channel} {k : Client} {c : Channel} (has : h.stance k = .joined c) :
      Move h ((h.moveTo k .free).close c)
  | abandon {h : Handshake Client Ticket Channel} {k : Client} {t : Ticket} (waits : h.stance k = .waiting t)
      (unanswered : ∀ c, h.answers t ≠ some (some c)) :
      Move h { h.moveTo k .free with abandoned := Function.update h.abandoned t true }
  | forsake {h : Handshake Client Ticket Channel} {k : Client} {t : Ticket} {c : Channel}
      (waits : h.stance k = .waiting t) (answered : h.answers t = some (some c)) :
      Move h ((h.moveTo k .free).close c)

def Step (h h' : Handshake Client Ticket Channel) : Prop := ∃ mid, Move h mid ∧ Ages mid h'

theorem Ages.step {h h' : Handshake Client Ticket Channel} (ages : Ages h h') : Step h h' := ⟨h, .rest, ages⟩

namespace Sound

variable {h h' : Handshake Client Ticket Channel} {k : Client} {t : Ticket}

theorem abandon (sound : Sound h) (waits : h.stance k = .waiting t)
    (unanswered : ∀ c, h.answers t ≠ some (some c)) :
    Sound { h.moveTo k .free with abandoned := Function.update h.abandoned t true } := by
  have held : (h.stance k).ticket = some t := by rw [waits, Stance.ticket]
  have others : ∀ j, j ≠ k → (h.stance j).ticket ≠ some t := fun j apart also => apart (sound.alone j k t also held)
  have ready := sound.drawn k t held
  obtain ⟨drawn, alone, transit_drawn, answers_drawn, abandoned_drawn, kept, unused, once, unanswered, waited,
    waiting, attended⟩ := sound
  constructor <;> simp only [moveTo, Function.update_apply] <;> grind [Stance.ticket]

theorem move (sound : Sound h) (move : Move h h') : Sound h' := by
  cases move with
  | rest => exact sound
  | draw free fresh => exact sound.draw free fresh
  | hand holds => exact sound.hand holds
  | discard holds => exact sound.settle rfl (by simp [holds]) (by simp [holds])
  | @take t rest c first idle => exact sound.take idle c
  | answer first present => exact sound.answer first present
  | lose first gives absent => exact sound.lose first gives absent
  | join waits answered => exact sound.settle rfl (by simp [waits, answered]) (by simp [waits, answered])
  | refuse waits answered => exact sound.settle rfl (by simp [waits, answered]) (by simp [waits, answered])
  | @leave k c has => exact (sound.close c).settle rfl (by simp [Handshake.close, has]) (by simp [Handshake.close, has])
  | abandon waits unanswered => exact sound.abandon waits unanswered
  | @forsake k t c waits answered =>
    exact (sound.close c).settle rfl (by simp [Handshake.close, waits, answered])
      (by simp [Handshake.close, waits, answered])

theorem step (sound : Sound h) (step : Step h h') : Sound h' := by
  obtain ⟨mid, move, ages⟩ := step
  exact (sound.move move).ages ages

end Sound

end Handshake

end Async
