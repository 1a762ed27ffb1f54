/-
Reading a command line: switches anywhere, and the words that fill its places in order.

Two dashes end the switches; a word of two dashes after that fills its place with nothing.

Main statements: `items_nil`, an empty line has no items, and `length_switchItems_le`, a switch takes
its value from the words that follow.
-/
import Tender.CommandLine.Word

namespace Tender.CommandLine

/-- What a command line can hold. -/
structure Form (σ : Type) where
  switches : Switches σ
  /-- Whether a value goes with a switch. -/
  valued : σ → Bool
  /-- How many words have a place. -/
  places : Nat

/-- An item of a command line. -/
inductive Item (σ : Type) where
  | switch (s : σ) (value : Option Text)
  /-- The word of a place, or nothing. -/
  | place (word : Option Text)
  /-- A word without a place. -/
  | extra
  /-- A word that cannot be used so; nothing after it counts. -/
  | misuse

/-- The word that ends the switches. -/
def dashes : Text := ['-', '-']

/-- The switches that one word spells. -/
inductive Spelled (σ : Type) where
  | items (done : List (Item σ))
  /-- The last switch has nothing attached to it. -/
  | open (done : List (Item σ)) (last : σ)
  | misuse

variable {σ : Type}

/-- Reads what is attached to a switch: its value, or short names of more switches. -/
def spell (form : Form σ) (done : List (Item σ)) (isShort : Bool) (s : σ) (equals : Bool)
    (text : Text) : Spelled σ :=
  if form.valued s then .items (done ++ [.switch s (some text)])
  else match text with
    | [] => .misuse
    | c :: rest =>
      if !isShort || equals || c = '-' then .misuse
      else
        let done := done ++ [.switch s none]
        match form.switches.lookup ['-', c] with
        | none => .items (done ++ [.extra])
        | some next => match rest with
          | [] => .open done next
          | '=' :: rest => spell form done true next true rest
          | d :: rest => spell form done true next false (d :: rest)
termination_by text.length

/-- Ends the switches of a word; the last one takes the next word if a value goes with it. -/
def close (form : Form σ) (done : List (Item σ)) (last : σ) (rest : List Text) :
    List (Item σ) × List Text :=
  if form.valued last then match rest with
    | w :: rest =>
      if w ≠ dashes ∧ (Word.read form.switches w).isPlain then
        (done ++ [.switch last (some w)], rest)
      else ([.misuse], rest)
    | [] => ([.misuse], [])
  else (done ++ [.switch last none], rest)

/-- The items of a word that names a switch, and the words that are left. -/
def switchItems (form : Form σ) (name : Text) (s : σ) (attached : Option Attached)
    (rest : List Text) : List (Item σ) × List Text :=
  match attached with
  | none => close form [] s rest
  | some a => match spell form [] (name[1]? ≠ some '-') s a.equals a.text with
    | .items done => (done, rest)
    | .open done last => close form done last rest
    | .misuse => ([.misuse], rest)

theorem length_close_le (form : Form σ) (done : List (Item σ)) (last : σ) (rest : List Text) :
    (close form done last rest).2.length ≤ rest.length := by
  unfold close
  split
  · split
    · split <;> simp
    · simp
  · simp

theorem length_switchItems_le (form : Form σ) (name : Text) (s : σ) (attached : Option Attached)
    (rest : List Text) : (switchItems form name s attached rest).2.length ≤ rest.length := by
  unfold switchItems
  split
  · exact length_close_le ..
  · split
    · simp
    · exact length_close_le ..
    · simp

/-- The items of words after the switches have ended. -/
def plainItems : (places : Nat) → List Text → List (Item σ)
  | _, [] => []
  | 0, _ :: rest => .extra :: plainItems 0 rest
  | places + 1, w :: rest => .place (if w = dashes then none else some w) :: plainItems places rest

/-- The items of words after two dashes; `filled` says whether a word before the dashes filled a
place. -/
def afterDashes (places : Nat) (filled : Bool) (rest : List Text) : List (Item σ) :=
  if filled then plainItems places rest
  else match places, rest with
    | places + 1, w :: rest => .place (some w) :: plainItems places rest
    | _, _ => [.extra]

/-- The items of words when so many places are left; `filled` says whether the last word filled a
place. -/
def items (form : Form σ) (places : Nat) (filled : Bool) (words : List Text) : List (Item σ) :=
  match words with
  | [] => []
  | w :: rest =>
    if w = dashes then afterDashes places filled rest
    else match Word.read form.switches w with
      | .plain => match places with
        | 0 => .extra :: items form 0 false rest
        | places + 1 => .place (some w) :: items form places true rest
      | .switch name s attached =>
        have := length_switchItems_le form name s attached rest
        (switchItems form name s attached rest).1 ++
          items form places false (switchItems form name s attached rest).2
      | .unknown => .extra :: items form places false rest
      | .ambiguous => [.misuse]
termination_by words.length

theorem items_nil (form : Form σ) (places : Nat) (filled : Bool) :
    items form places filled [] = [] := by
  rw [items]

/-- The items of a command line; the start of several names is a misuse wherever it stands. -/
def read (form : Form σ) (words : List Text) : List (Item σ) :=
  if (words.takeWhile (· ≠ dashes)).any fun w => (Word.read form.switches w).isAmbiguous then
    [.misuse]
  else items form form.places false words

/-- Why a command line is not carried out. -/
inductive Stop where
  /-- It asks for help. -/
  | help
  | misuse
  deriving DecidableEq

/-- Goes through items in order: `set` takes in a switch, and the words of the places are
collected. -/
def gather {α : Type} (set : α → σ → Option Text → Except Stop α) :
    (a : α) → (places : List (Option Text)) → (extra : Bool) → List (Item σ) →
    Except Stop (α × List (Option Text) × Bool)
  | a, places, extra, [] => .ok (a, places, extra)
  | a, places, extra, .switch s value :: rest => do
    gather set (← set a s value) places extra rest
  | a, places, extra, .place word :: rest => gather set a (places ++ [word]) extra rest
  | a, places, _, .extra :: rest => gather set a places true rest
  | _, _, _, .misuse :: _ => .error .misuse

/-- Fills a form: all its places have to be filled and no word may be left over. -/
def fill {α : Type} (form : Form σ) (set : α → σ → Option Text → Except Stop α) (a : α)
    (words : List Text) : Except Stop (α × List (Option Text)) := do
  let (a, places, extra) ← gather set a [] false (read form words)
  if extra ∨ places.length < form.places then .error .misuse else .ok (a, places)

end Tender.CommandLine
