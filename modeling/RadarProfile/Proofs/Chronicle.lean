import RadarProfile.Endpoint.Basic

set_option autoImplicit false

/-! # What a chronicle says was done

A chronicle holds sends, writes and notes. Three views of it are used to state what a run
does: its deeds (the sends and the attempted writes, in order), the parameters that it
tried to write, and the commands that it dispatched, where a retry does not count again.
Each view of a chronicle made of two parts is made of the views of the parts. -/

namespace RadarProfile

/-! ## Deeds -/

/-- Something that a run does to the world: it sends a command, or tries to write a
parameter. Whether the store took the parameter is left out. -/
inductive Deed where
  | send (command : Text)
  | write (parameter : Parameter)
deriving DecidableEq

namespace Deed

def command? : Deed → Option Text
  | send command => some command
  | write _ => none

def parameter? : Deed → Option Parameter
  | send _ => none
  | write parameter => some parameter

/-- The entry of a deed in a chronicle, where `takes` says which keys the store takes. -/
def entry (takes : Text → Bool) : Deed → Entry
  | send command => .sent command
  | write parameter => .wrote parameter.name parameter.value (takes parameter.name)

end Deed

def Entry.deed? : Entry → Option Deed
  | .sent command => some (.send command)
  | .wrote name value _ => some (.write ⟨name, value⟩)
  | .noted _ => none

namespace Chronicle

def deeds (c : Chronicle) : List Deed := c.filterMap Entry.deed?

/-- The parameters that were handed to the store, in order, taken or not. -/
def writes (c : Chronicle) : List Parameter := c.deeds.filterMap Deed.parameter?

@[simp] theorem deeds_noted (note : Note) (c : Chronicle) :
    deeds (.noted note :: c) = c.deeds := rfl

@[simp] theorem deeds_sent (command : Text) (c : Chronicle) :
    deeds (.sent command :: c) = .send command :: c.deeds := rfl

@[simp] theorem deeds_wrote (name : Text) (value : Value) (taken : Bool) (c : Chronicle) :
    deeds (.wrote name value taken :: c) = .write ⟨name, value⟩ :: c.deeds := rfl

@[simp] theorem deeds_append (a b : Chronicle) : deeds (a ++ b) = a.deeds ++ b.deeds := by
  rw [deeds, List.filterMap_append]
  rfl

@[simp] theorem deeds_map_noted (notes : List Note) : deeds (notes.map .noted) = [] := by
  induction notes with
  | nil => rfl
  | cons note rest ih => rw [List.map_cons, deeds_noted, ih]

theorem sends_eq_deeds (c : Chronicle) : c.sends = c.deeds.filterMap Deed.command? := by
  induction c with
  | nil => rfl
  | cons entry rest ih =>
      cases entry with
      | sent command => exact congrArg (command :: ·) ih
      | wrote name value taken => exact ih
      | noted note => exact ih

theorem sends_map_noted (notes : List Note) : sends (notes.map .noted) = [] := by
  rw [sends_eq_deeds, deeds_map_noted]
  rfl

/-! ## Effects

Where the store decides by the key alone, the effects (deeds with the store's answer) say
no more than the deeds. -/

/-- Every write in the chronicle was answered as `takes` says. -/
def AnsweredBy (takes : Text → Bool) (c : Chronicle) : Prop :=
  ∀ name value taken, .wrote name value taken ∈ c → taken = takes name

theorem AnsweredBy.append {takes : Text → Bool} {a b : Chronicle}
    (ha : AnsweredBy takes a) (hb : AnsweredBy takes b) : AnsweredBy takes (a ++ b) := by
  intro name value taken h
  rcases List.mem_append.mp h with h | h
  · exact ha name value taken h
  · exact hb name value taken h

/-- An entry about a write is a deed, and its parameter is one of the writes. -/
theorem mem_writes_of_mem {c : Chronicle} {name : Text} {value : Value} {taken : Bool}
    (h : .wrote name value taken ∈ c) : (⟨name, value⟩ : Parameter) ∈ c.writes := by
  have hdeed : Deed.write ⟨name, value⟩ ∈ c.deeds := List.mem_filterMap.mpr ⟨_, h, rfl⟩
  exact List.mem_filterMap.mpr ⟨_, hdeed, rfl⟩

theorem answeredBy_of_no_writes {takes : Text → Bool} {c : Chronicle} (h : c.writes = []) :
    AnsweredBy takes c := by
  intro name value taken hmem
  have hwrite := mem_writes_of_mem hmem
  rw [h] at hwrite
  exact absurd hwrite List.not_mem_nil

/-- **The effects are the deeds**, each write with the answer that its key gets. -/
theorem effects_eq_deeds {takes : Text → Bool} {c : Chronicle} (h : AnsweredBy takes c) :
    c.effects = c.deeds.map (Deed.entry takes) := by
  induction c with
  | nil => rfl
  | cons entry rest ih =>
      -- the rest of the chronicle is answered in the same way
      have ih := ih fun name value taken hmem =>
        h name value taken (List.mem_cons_of_mem _ hmem)
      cases entry with
      | sent command => exact congrArg (.sent command :: ·) ih
      | noted note => exact ih
      | wrote name value taken =>
          have htaken : taken = takes name := h name value taken List.mem_cons_self
          rw [deeds_wrote, List.map_cons, ← ih, htaken]
          rfl

/-! ## Dispatches

A send that is announced as a first attempt begins the dispatch of a command; any other
send is a retry. The announcement stands right before the send, so that nothing which an
endpoint or a store notes on its own can be taken for it. -/

/-- The commands dispatched, in order: those of the sends announced as a first attempt. -/
def dispatches : Chronicle → List Text
  | .noted (.attempted _ 1) :: .sent command :: rest => command :: dispatches rest
  | _ :: rest => dispatches rest
  | [] => []

/-- The chronicle does not begin with a send, so an announcement at the end of what stands
before it announces nothing in it. -/
def BeginsQuietly (c : Chronicle) : Prop := ∀ command rest, c ≠ .sent command :: rest

theorem beginsQuietly_nil : BeginsQuietly [] := fun _ _ h => nomatch h

theorem beginsQuietly_noted (note : Note) (c : Chronicle) :
    BeginsQuietly (.noted note :: c) := fun _ _ h => nomatch h

theorem BeginsQuietly.append {a b : Chronicle} (ha : BeginsQuietly a)
    (hb : BeginsQuietly b) : BeginsQuietly (a ++ b) := by
  cases a with
  | nil => exact hb
  | cons entry rest =>
      intro command tail h
      exact ha command rest (by rw [(List.cons.inj h).1])

/-- A chronicle that begins with a note and no send after it dispatches what its tail
does. -/
theorem dispatches_noted (note : Note) {c : Chronicle} (h : BeginsQuietly c) :
    dispatches (.noted note :: c) = dispatches c := by
  rw [dispatches]
  intro command number rest hnote hc
  exact h number rest hc

theorem dispatches_append (a : Chronicle) {b : Chronicle} (hb : BeginsQuietly b) :
    dispatches (a ++ b) = dispatches a ++ dispatches b := by
  fun_induction dispatches a with
  | case1 announced command rest ih => simp only [List.cons_append, dispatches, ih]
  | case2 entry rest hne ih =>
      rw [List.cons_append, dispatches, ih]
      -- an announcement at the very end could only be completed by a send that `b` begins with
      intro announced command tail hentry hrest
      cases rest with
      | nil => exact hb command tail hrest
      | cons next more =>
          rw [List.cons_append] at hrest
          exact hne announced command more hentry (by rw [(List.cons.inj hrest).1])
  | case3 => rfl

theorem beginsQuietly_map_noted (notes : List Note) :
    BeginsQuietly (notes.map .noted) := by
  cases notes with
  | nil => exact beginsQuietly_nil
  | cons note rest => exact beginsQuietly_noted note _

theorem dispatches_eq_nil {c : Chronicle} (h : c.sends = []) : dispatches c = [] := by
  fun_induction dispatches c with
  | case1 announced command rest ih => cases h
  | case2 entry rest hne ih =>
      apply ih
      cases entry with
      | sent command => cases h
      | wrote name value taken => exact h
      | noted note => exact h
  | case3 => rfl

end Chronicle

end RadarProfile
