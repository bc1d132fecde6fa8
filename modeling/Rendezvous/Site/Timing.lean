import Rendezvous.Site.Drain

/-!
# Timing

Deliveries are made by a thread of their own, which does not wait for whoever is at work on
a site. An operation that does several things to the fabric leaves it alone in between, and
any number of deliveries can be made there. How many is not for the operation to say, so
that it is a parameter: what is proved of an operation is proved whatever its timing is.
Before the first thing that an operation does and after the last, deliveries are made as
well, but not in the course of it.

What is left out: a thread that closes or deletes a participant waits for the delivery to it
that is just being made, if there is one. Here a delivery is made at once, with all that the
listener does meanwhile, so that none is being made when anything else is done.
-/

namespace Rendezvous

/-- The moments at which an operation leaves the fabric alone before it goes on. -/
inductive Moment where
  /-- The server that a new one is to replace is closed. -/
  | closed
  /-- A participant was deleted, or its deletion was refused and the operation goes on. -/
  | deleted
  | created
  /-- A recovery participant has joined, and waits. -/
  | waiting
  deriving DecidableEq, Repr

/-- What is delivered in the course of an operation, at each of its moments and depending on all
that is the case then. -/
structure Timing where
  pause : Moment → Site → Site
  drains : ∀ moment s, Site.Drains s (pause moment s)

namespace Timing

/-- Whatever is due is delivered as soon as it can be. -/
def prompt : Timing := ⟨fun _ => Site.drain, fun _ => Site.drains_drain⟩

/-- Nothing is delivered before the operation is over. -/
def late : Timing := ⟨fun _ s => s, fun _ => .refl⟩

/-- Whether everything that is due is delivered at a moment. A recovery participant that does not
wait for so long misses servers, which go on then. -/
def Settles (t : Timing) (moment : Moment) : Prop :=
  ∀ s, (t.pause moment s).fabric.queue.toList = []

theorem settles_prompt (moment : Moment) : prompt.Settles moment := Site.queue_drain

theorem Settles.pause_eq {t : Timing} {moment : Moment} (h : t.Settles moment) (s : Site) :
    t.pause moment s = s.drain := (t.drains moment s).eq_drain (h s)

end Timing

end Rendezvous
