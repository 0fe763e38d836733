import Mathlib.Tactic

/-!
# Parcels

A parcel takes typed entries at its end and gives them back at its front. What it
is made of is left open: a write may fail, and a read is known only where the entry
at the front has the type that is read.
-/

namespace Parcels

variable {κ : Type} {V : κ → Type} {P α β : Type}

/-- An entry is a type and a value of it. -/
abbrev Entry (V : κ → Type) := (k : κ) × V k

/-- A write tells whether it succeeded, and a read that fails yields no value. -/
structure Ops (V : κ → Type) (P : Type) where
  new : P
  write : (k : κ) → V k → P → Bool × P
  read : (k : κ) → P → Option (V k) × P

/-- What the users of parcels rely on; `contents` are the entries not read yet. -/
structure Lawful (ops : Ops V P) where
  contents : P → List (Entry V)
  contents_new : contents ops.new = []
  contents_write : ∀ {k v p}, (ops.write k v p).1 = true →
    contents (ops.write k v p).2 = contents p ++ [⟨k, v⟩]
  read_front : ∀ {k v p rest}, contents p = ⟨k, v⟩ :: rest →
    (ops.read k p).1 = some v ∧ contents (ops.read k p).2 = rest

/-- A program that writes: `none` has no defined end, and `some none` is one that gives
up, as at a write that fails and is checked. -/
abbrev Writing (P : Type) := StateT P (OptionT Option)

/-- A program that reads. -/
abbrev Reading (P : Type) := StateM P

namespace Ops

variable (ops : Ops V P)

/-- No write fails. -/
def Roomy : Prop := ∀ k v p, (ops.write k v p).1 = true

/-- A write that is checked. -/
def put (k : κ) (v : V k) : Writing P Unit := fun p =>
  let written := ops.write k v p
  if !written.1 then some none else some (some ((), written.2))

/-- A write whose outcome is ignored. -/
def putUnchecked (k : κ) (v : V k) : Writing P Unit := fun p =>
  some (some ((), (ops.write k v p).2))

def get (k : κ) : Reading P (Option (V k)) := ops.read k

/-- A read that falls back on a value. -/
def getD (k : κ) (fallback : V k) : Reading P (V k) := do
  return (← ops.get k).getD fallback

end Ops

variable {ops : Ops V P} (L : Lawful ops)

/-- A program made of writes, and the entries that it adds if it goes through. -/
inductive Puts (ops : Ops V P) : Writing P Unit → List (Entry V) → Prop
  | pure : Puts ops (pure ()) []
  | put (k : κ) (v : V k) : Puts ops (ops.put k v) [⟨k, v⟩]
  | putUnchecked {k : κ} {v : V k} (h : ∀ p, (ops.write k v p).1 = true) :
      Puts ops (ops.putUnchecked k v) [⟨k, v⟩]
  | bind {w w' : Writing P Unit} {entries entries' : List (Entry V)} (h : Puts ops w entries)
      (h' : Puts ops w' entries') : Puts ops (w >>= fun _ => w') (entries ++ entries')

/-- Where the entries are at the front the program takes them and yields the value. -/
def Reads (r : Reading P α) (entries : List (Entry V)) (a : α) : Prop :=
  ∀ p rest, L.contents p = entries ++ rest → (r p).1 = a ∧ L.contents (r p).2 = rest

variable {L}

theorem bind_eq_some {w w' : Writing P Unit} {p p' : P} :
    (w >>= fun _ => w') p = some (some ((), p')) ↔
      ∃ q, w p = some (some ((), q)) ∧ w' q = some (some ((), p')) := by
  change OptionT.bind (w p) (fun written => w' written.2) = _ ↔ _
  generalize w p = written
  rcases written with _ | _ | ⟨_, q⟩
  · constructor
    · intro h
      cases h
    · rintro ⟨_, h, _⟩
      cases h
  · constructor
    · intro h
      cases h
    · rintro ⟨_, h, _⟩
      cases h
  · constructor
    · intro h
      exact ⟨q, rfl, h⟩
    · rintro ⟨q', h, h'⟩
      cases h
      exact h'

namespace Puts

variable {w : Writing P Unit} {entries : List (Entry V)} {p p' : P}

theorem contents (L : Lawful ops) (h : Puts ops w entries) (hrun : w p = some (some ((), p'))) :
    L.contents p' = L.contents p ++ entries := by
  induction h generalizing p p' with
  | pure =>
    cases hrun
    simp
  | put k v =>
    simp only [Ops.put] at hrun
    split_ifs at hrun with hwritten
    · cases hrun
    · cases hrun
      exact L.contents_write (by simpa using hwritten)
  | putUnchecked h =>
    cases hrun
    exact L.contents_write (h p)
  | bind _ _ ih ih' =>
    obtain ⟨q, hw, hw'⟩ := bind_eq_some.mp hrun
    rw [ih' hw', ih hw, List.append_assoc]

theorem written (L : Lawful ops) (h : Puts ops w entries) (hrun : w ops.new = some (some ((), p))) :
    L.contents p = entries := by
  rw [h.contents L hrun, L.contents_new, List.nil_append]

theorem ends (h : Puts ops w entries) (p : P) : w p ≠ none := by
  induction h generalizing p with
  | pure => exact Option.some_ne_none (some ((), p))
  | put k v =>
    simp only [Ops.put]
    split_ifs
    · simp
    · simp
  | putUnchecked h => simp [Ops.putUnchecked]
  | @bind w w' _ _ _ _ ih ih' =>
    have hstart := ih p
    change OptionT.bind (w p) (fun written => w' written.2) ≠ _
    generalize w p = written at hstart
    match written, hstart with
    | some none, _ => exact fun h => by cases h
    | some (some ((), q)), _ => exact ih' q

theorem goes (h : Puts ops w entries) (hroomy : ops.Roomy) (p : P) :
    ∃ p', w p = some (some ((), p')) := by
  induction h generalizing p with
  | pure => exact ⟨p, rfl⟩
  | put k v => exact ⟨(ops.write k v p).2, by simp [Ops.put, hroomy k v p]⟩
  | putUnchecked h => exact ⟨_, rfl⟩
  | bind _ _ ih ih' =>
    obtain ⟨q, hq⟩ := ih p
    obtain ⟨p', hp'⟩ := ih' q
    exact ⟨p', bind_eq_some.mpr ⟨q, hq, hp'⟩⟩

end Puts

namespace Reads

variable {r : Reading P α} {entries entries' : List (Entry V)} {a : α}

theorem pure (a : α) : Reads L (pure a) [] a := fun _ _ h => ⟨rfl, h⟩

theorem get (k : κ) (v : V k) : Reads L (ops.get k) [⟨k, v⟩] (some v) :=
  fun _ _ h => L.read_front h

theorem bind {f : α → Reading P β} {b : β} (h : Reads L r entries a)
    (h' : Reads L (f a) entries' b) : Reads L (r >>= f) (entries ++ entries') b := by
  intro p rest hp
  rw [List.append_assoc] at hp
  obtain ⟨hvalue, hbehind⟩ := h p _ hp
  have hnext := h' (r p).2 rest hbehind
  rw [← hvalue] at hnext
  exact hnext

theorem getD (k : κ) (fallback v : V k) : Reads L (ops.getD k fallback) [⟨k, v⟩] v := by
  have hget := (get (L := L) k v).bind (f := fun found => Pure.pure (found.getD fallback))
    (Reads.pure v)
  exact hget

theorem run (h : Reads L r entries a) {p : P} (hp : L.contents p = entries) : (r p).1 = a :=
  (h p [] (by rw [hp, List.append_nil])).1

end Reads

section Queue

variable [DecidableEq κ]

/-- A list of entries is a parcel. -/
def queue (V : κ → Type) : Ops V (List (Entry V)) where
  new := []
  write k v p := (true, p ++ [⟨k, v⟩])
  read k p :=
    match p with
    | [] => (none, [])
    | entry :: rest =>
      if h : entry.1 = k then (some (h ▸ entry.2), rest) else (none, entry :: rest)

def queueLawful (V : κ → Type) : Lawful (queue V) where
  contents p := p
  contents_new := rfl
  contents_write _ := rfl
  read_front := by
    rintro k v p rest rfl
    simp [queue]

theorem queue_roomy (V : κ → Type) : (queue V).Roomy := fun _ _ _ => rfl

end Queue

end Parcels
