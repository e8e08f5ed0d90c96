import SyntaxCatalog.Json.Pass

/-! Typed readers: strings, lists, objects, records and choices. A record may be written as an object
or as the list of its fields in order. A value of another kind is refused by naming what was found. -/
namespace SyntaxCatalog.Json
open Text (Reader)

def refused (cause : Mismatch) (rest : List Char) : Fault := (Reason.mismatch cause).before rest

-- Names the value found where another kind was expected. Scalars are read to their end first.
def unexpected (expected : String) : List Char → Fault
  | [] => Reason.endInValue.before []
  | c :: rest =>
      if c = 'n' then after (word ['u','l','l'] rest) (fun _ => .null) id
      else if c = 't' then after (word ['r','u','e'] rest) (fun _ => .boolean true) id
      else if c = 'f' then after (word ['a','l','s','e'] rest) (fun _ => .boolean false) id
      else if c = '-' then after (readNumber true rest) (fun read => number read.1) Prod.snd
      else if c.isDigit then after (readNumber false (c :: rest)) (fun read => number read.1) Prod.snd
      else if c = '"' then after (stringBody rest) (fun read => .string (String.ofList read.1)) Prod.snd
      else if c = '[' then refused (.invalidType .sequence expected) (c :: rest)
      else if c = '{' then refused (.invalidType .map expected) (c :: rest)
      else Reason.expectedValue.into (c :: rest)
where
  number : Number → Found
    | .integer value => .integer value
    | .float value => .float (Decimal.Layout.compact.text value)
  after {α : Type} (read : Except Fault α) (found : α → Found) (rest : α → List Char) : Fault :=
    match read with
    | .error e => e
    | .ok a => refused (.invalidType (found a) expected) (rest a)

def readString (expected : String) (cs : List Char) : Except Fault (String × List Char) :=
  match skipBlank cs with
  | [] => .error (Reason.endInValue.before [])
  | c :: rest =>
      if c = '"' then (stringBody rest).map (fun read => (String.ofList read.1,read.2))
      else .error (unexpected expected (c :: rest))

theorem readStringLength {expected cs s last} (h : readString expected cs = .ok (s,last)) :
    last.length < cs.length := by
  unfold readString at h
  have first := skipBlankLength cs
  split at h
  · cases h
  · rename_i c rest start
    rw [start,List.length_cons] at first
    split at h
    · cases read : stringBody rest with
      | error e => simp [read,Except.map] at h
      | ok found =>
          obtain ⟨_,_⟩ := found
          simp only [read,Except.map] at h; cases h
          have := stringBodyLength read; omega
    · cases h

def string (expected : String) : Reader Fault String := ⟨readString expected,readStringLength⟩

def nextElement (first : Bool) (cs : List Char) : Except Fault (Bool × List Char) :=
  match skipBlank cs with
  | [] => .error (Reason.endInList.before [])
  | c :: rest =>
      if c = ']' then .ok (false,rest)
      else if first then .ok (true,c :: rest)
      else if c = ',' then
        match skipBlank rest with
        | [] => .error (Reason.endInValue.before [])
        | d :: more =>
            if d = ']' then .error (Reason.trailingComma.into (d :: more)) else .ok (true,d :: more)
      else .error (Reason.expectedListCommaOrEnd.into (c :: rest))

theorem nextElementLength {first cs more rest} (h : nextElement first cs = .ok (more,rest)) :
    rest.length ≤ cs.length ∧ (more = false → rest.length < cs.length) := by
  unfold nextElement at h
  have before := skipBlankLength cs
  split at h
  · cases h
  · rename_i c tail start
    rw [start,List.length_cons] at before
    split at h
    · cases h; exact ⟨by omega,fun _ => by omega⟩
    · split at h
      · cases h; exact ⟨by simpa using before,by simp⟩
      · split at h
        · have after := skipBlankLength tail
          split at h
          · cases h
          · rename_i next
            rw [next] at after
            split at h <;> cases h
            exact ⟨by omega,by simp⟩
        · cases h

def elements {α : Type} (item : Reader Fault α) (first : Bool) (cs : List Char) :
    Except Fault (List α × List Char) :=
  match _h : nextElement first cs with
  | .error e => .error e
  | .ok (false,rest) => .ok ([],rest)
  | .ok (true,rest) =>
      match _read : item.run rest with
      | .error e => .error e
      | .ok (a,more) =>
          match elements item false more with
          | .error e => .error e
          | .ok (as,last) => .ok (a :: as,last)
  termination_by cs.length
  decreasing_by
    have one := (nextElementLength (by assumption)).1
    have two := item.shorter (by assumption)
    omega

theorem elementsLength {α : Type} {item : Reader Fault α} {first cs as rest}
    (h : elements item first cs = .ok (as,rest)) : rest.length < cs.length := by
  fun_induction elements item first cs generalizing as rest with
  | case1 => cases h
  | case2 first cs rest closed => cases h; exact (nextElementLength closed).2 rfl
  | case3 => cases h
  | case4 => cases h
  | case5 first cs middle next a more read as last tail ih =>
      cases h
      have one := (nextElementLength next).1
      have two := item.shorter read
      have three := ih tail
      omega

def readList {α : Type} (item : Reader Fault α) (cs : List Char) : Except Fault (List α × List Char) :=
  match skipBlank cs with
  | [] => .error (Reason.endInValue.before [])
  | c :: rest =>
      if c = '[' then elements item true rest
      else .error (unexpected "a sequence" (c :: rest))

theorem readListLength {α : Type} {item : Reader Fault α} {cs as last}
    (h : readList item cs = .ok (as,last)) : last.length < cs.length := by
  unfold readList at h
  have first := skipBlankLength cs
  split at h
  · cases h
  · rename_i start
    rw [start,List.length_cons] at first
    split at h
    · have := elementsLength h; omega
    · cases h

def list {α : Type} (item : Reader Fault α) : Reader Fault (List α) :=
  ⟨readList item,readListLength⟩

def nextKey (first : Bool) (cs : List Char) : Except Fault (Option String × List Char) :=
  match skipBlank cs with
  | [] => .error (Reason.endInObject.before [])
  | c :: rest =>
      if c = '}' then .ok (none,rest)
      else if first then key (c :: rest)
      else if c = ',' then
        match skipBlank rest with
        | [] => .error (Reason.endInValue.before [])
        | d :: more =>
            if d = '}' then .error (Reason.trailingComma.into (d :: more)) else key (d :: more)
      else .error (Reason.expectedObjectCommaOrEnd.into (c :: rest))
where
  key : List Char → Except Fault (Option String × List Char)
    | [] => .error (Reason.keyMustBeString.into [])
    | c :: rest =>
        if c = '"' then (stringBody rest).map (fun read => (some (String.ofList read.1),read.2))
        else .error (Reason.keyMustBeString.into (c :: rest))

theorem keyLength {cs key rest} (h : nextKey.key cs = .ok (key,rest)) : rest.length < cs.length := by
  unfold nextKey.key at h
  split at h
  · cases h
  · rename_i tail
    split at h
    · cases read : stringBody tail with
      | error e => simp [read,Except.map] at h
      | ok found =>
          obtain ⟨_,_⟩ := found
          simp only [read,Except.map] at h; cases h
          have := stringBodyLength read
          simp only [List.length_cons]; omega
    · cases h

theorem nextKeyLength {first cs key rest} (h : nextKey first cs = .ok (key,rest)) :
    rest.length < cs.length := by
  unfold nextKey at h
  have before := skipBlankLength cs
  split at h
  · cases h
  · rename_i c tail start
    rw [start,List.length_cons] at before
    split at h
    · cases h; omega
    · split at h
      · have := keyLength h; simp only [List.length_cons] at this; omega
      · split at h
        · have after := skipBlankLength tail
          split at h
          · cases h
          · rename_i next
            rw [next] at after
            split at h
            · cases h
            · have := keyLength h; omega
        · cases h

def colon (cs : List Char) : Except Fault (List Char) :=
  match skipBlank cs with
  | [] => .error (Reason.endInObject.before [])
  | c :: rest => if c = ':' then .ok rest else .error (Reason.expectedColon.into (c :: rest))

theorem colonLength {cs rest} (h : colon cs = .ok rest) : rest.length < cs.length := by
  unfold colon at h
  have first := skipBlankLength cs
  split at h
  · cases h
  · rename_i start
    rw [start,List.length_cons] at first
    split at h <;> cases h
    omega

inductive Field (σ : Type) where
  | value (reader : Reader Fault σ)
  | refuse (cause : Mismatch)

-- A key is refused after the blanks that follow it, and after the object's end if that is next.
def refusedKey (cause : Mismatch) (cs : List Char) : Fault :=
  match skipBlank cs with
  | c :: rest => if c = '}' then refused cause rest else refused cause (c :: rest)
  | [] => refused cause []

def members {σ : Type} (field : σ → String → Field σ) (first : Bool) (state : σ) (cs : List Char) :
    Except Fault (σ × List Char) :=
  match _h : nextKey first cs with
  | .error e => .error e
  | .ok (none,rest) => .ok (state,rest)
  | .ok (some key,rest) =>
      match field state key with
      | .refuse cause => .error (refusedKey cause rest)
      | .value reader =>
          match _c : colon rest with
          | .error e => .error e
          | .ok more =>
              match _r : reader.run more with
              | .error e => .error e
              | .ok (next,last) => members field false next last
  termination_by cs.length
  decreasing_by
    have one := nextKeyLength (by assumption)
    have two := colonLength (by assumption)
    have three := reader.shorter (by assumption)
    omega

theorem membersLength {σ : Type} {field : σ → String → Field σ} {first state cs last rest}
    (h : members field first state cs = .ok (last,rest)) : rest.length < cs.length := by
  fun_induction members field first state cs with
  | case1 => cases h
  | case2 first state cs rest closed => cases h; exact nextKeyLength closed
  | case3 => cases h
  | case4 => cases h
  | case5 => cases h
  | case6 first state cs key after next reader _ more sep new rest' read ih =>
      have one := nextKeyLength next
      have two := colonLength sep
      have three := reader.shorter read
      have four := ih h
      omega

def endList (cs : List Char) : Except Fault (List Char) :=
  match skipBlank cs with
  | [] => .error (Reason.endInList.before [])
  | c :: rest =>
      if c = ']' then .ok rest
      else if c = ',' then
        match skipBlank rest with
        | d :: more =>
            if d = ']' then .error (Reason.trailingComma.into (d :: more))
            else .error (Reason.trailingCharacters.into (d :: more))
        | [] => .error (Reason.trailingCharacters.into [])
      else .error (Reason.trailingCharacters.into (c :: rest))

theorem endListLength {cs rest} (h : endList cs = .ok rest) : rest.length < cs.length := by
  unfold endList at h
  have first := skipBlankLength cs
  split at h
  · cases h
  · rename_i start
    rw [start,List.length_cons] at first
    split at h
    · cases h; omega
    · split at h
      · split at h
        · split at h <;> cases h
        · cases h
      · cases h

structure Slot (σ : Type) where
  reader : σ → Reader Fault σ
  optional : Bool

def slots {σ : Type} (short : Nat → Mismatch) :
    List (Slot σ) → (index : Nat) → σ → List Char → Except Fault (σ × List Char)
  | [], _, state, cs => (endList cs).map (state,·)
  | slot :: more, index, state, cs =>
      match nextElement (index == 0) cs with
      | .error e => .error e
      | .ok (false,rest) => if slot.optional then .ok (state,rest) else .error (refused (short index) rest)
      | .ok (true,rest) =>
          match (slot.reader state).run rest with
          | .error e => .error e
          | .ok (next,last) => slots short more (index + 1) next last

theorem slotsLength {σ : Type} {short : Nat → Mismatch} {fields : List (Slot σ)} {index state cs last rest}
    (h : slots short fields index state cs = .ok (last,rest)) : rest.length < cs.length := by
  induction fields generalizing index state cs with
  | nil =>
      cases ended : endList cs with
      | error e => simp [slots,ended,Except.map] at h
      | ok more => simp only [slots,ended,Except.map] at h; cases h; exact endListLength ended
  | cons slot more ih =>
      simp only [slots] at h
      split at h
      · cases h
      · rename_i closed
        split at h <;> cases h
        exact (nextElementLength closed).2 rfl
      · rename_i next
        split at h
        · cases h
        · rename_i read
          have one := (nextElementLength next).1
          have two := (slot.reader state).shorter read
          have three := ih h
          omega

/-- A record: its name, how its fields are read as keys and as a list, and what makes it complete. -/
structure Record (σ α : Type) where
  name : String
  start : σ
  field : σ → String → Field σ
  slots : List (Slot σ)
  finish : σ → Except Mismatch α

def Record.short {σ α : Type} (r : Record σ α) (length : Nat) : Mismatch :=
  .invalidLength length (r.name ++ " with " ++ toString r.slots.length ++
    (if r.slots.length = 1 then " element" else " elements"))

def Record.complete {σ α : Type} (r : Record σ α) : σ × List Char → Except Fault (α × List Char)
  | (state,rest) =>
      match r.finish state with
      | .ok a => .ok (a,rest)
      | .error cause => .error (refused cause rest)

theorem completeRest {σ α : Type} {r : Record σ α} {read a rest}
    (h : r.complete read = .ok (a,rest)) : rest = read.2 := by
  simp only [Record.complete] at h
  split at h <;> cases h
  rfl

def Record.read {σ α : Type} (r : Record σ α) (cs : List Char) : Except Fault (α × List Char) :=
  match skipBlank cs with
  | [] => .error (Reason.endInValue.before [])
  | c :: rest =>
      if c = '{' then
        match members r.field true r.start rest with
        | .error e => .error e
        | .ok read => r.complete read
      else if c = '[' then
        match Json.slots r.short r.slots 0 r.start rest with
        | .error e => .error e
        | .ok read => r.complete read
      else .error (unexpected r.name (c :: rest))

theorem Record.readLength {σ α : Type} {r : Record σ α} {cs a last}
    (h : r.read cs = .ok (a,last)) : last.length < cs.length := by
  unfold Record.read at h
  have first := skipBlankLength cs
  split at h
  · cases h
  · rename_i start
    rw [start,List.length_cons] at first
    split at h
    · split at h
      · cases h
      · rename_i read
        have one := membersLength read
        rw [completeRest h]; omega
    · split at h
      · split at h
        · cases h
        · rename_i read
          have one := slotsLength read
          rw [completeRest h]; omega
      · cases h

def Record.reader {σ α : Type} (r : Record σ α) : Reader Fault α :=
  ⟨r.read,Record.readLength⟩

def readObject {σ : Type} (expected : String) (field : σ → String → Field σ) (start : σ) (cs : List Char) :
    Except Fault (σ × List Char) :=
  match skipBlank cs with
  | [] => .error (Reason.endInValue.before [])
  | c :: rest =>
      if c = '{' then members field true start rest
      else .error (unexpected expected (c :: rest))

theorem readObjectLength {σ : Type} {expected : String} {field : σ → String → Field σ} {start : σ}
    {cs a last} (h : readObject expected field start cs = .ok (a,last)) : last.length < cs.length := by
  unfold readObject at h
  have first := skipBlankLength cs
  split at h
  · cases h
  · rename_i start
    rw [start,List.length_cons] at first
    split at h
    · have := membersLength h; omega
    · cases h

def object {σ : Type} (expected : String) (field : σ → String → Field σ) (start : σ) : Reader Fault σ :=
  ⟨readObject expected field start,readObjectLength⟩

def readNullable {α : Type} (reader : Reader Fault α) (cs : List Char) : Except Fault (Option α × List Char) :=
  match skipBlank cs with
  | c :: rest =>
      if c = 'n' then (word ['u','l','l'] rest).map (none,·)
      else (reader.map some).run (c :: rest)
  | [] => (reader.map some).run []

theorem readNullableLength {α : Type} {reader : Reader Fault α} {cs a last}
    (h : readNullable reader cs = .ok (a,last)) : last.length < cs.length := by
  unfold readNullable at h
  have first := skipBlankLength cs
  split at h
  · rename_i c rest start
    rw [start] at first
    split at h
    · cases taken : word ['u','l','l'] rest with
      | error e => simp [taken,Except.map] at h
      | ok more =>
          simp only [taken,Except.map] at h; cases h
          have := wordLength taken
          simp only [List.length_cons] at first; omega
    · have := (reader.map some).shorter h; omega
  · have := (reader.map some).shorter h
    simp at this

-- A value that may be `null`.
def nullable {α : Type} (reader : Reader Fault α) : Reader Fault (Option α) :=
  ⟨readNullable reader,readNullableLength⟩

def chosen {α : Type} (choices : List (String × α)) : String × List Char → Except Fault (α × List Char)
  | (name,rest) =>
      match choices.lookup name with
      | some a => .ok (a,rest)
      | none => .error (refused (.unknownVariant name (choices.map Prod.fst)) rest)

theorem chosenRest {α : Type} {choices : List (String × α)} {read a rest}
    (h : chosen choices read = .ok (a,rest)) : rest = read.2 := by
  simp only [chosen] at h
  split at h <;> cases h
  rfl

def nothingMore (cs : List Char) : Except Fault (List Char) :=
  match colon cs with
  | .error e => .error e
  | .ok rest =>
      match skipBlank rest with
      | [] => .error (Reason.endInValue.before [])
      | c :: more =>
          if c = 'n' then
            match word ['u','l','l'] more with
            | .error e => .error e
            | .ok last =>
                match skipBlank last with
                | [] => .error (Reason.endInObject.before [])
                | d :: after =>
                    if d = '}' then .ok after else .error (Reason.expectedValue.before (d :: after))
          else .error (unexpected "unit" (c :: more))

theorem nothingMoreLength {cs rest} (h : nothingMore cs = .ok rest) : rest.length < cs.length := by
  unfold nothingMore at h
  split at h
  · cases h
  · rename_i afterColon sep
    have one := colonLength sep
    have two := skipBlankLength afterColon
    split at h
    · cases h
    · rename_i start
      rw [start,List.length_cons] at two
      split at h
      · split at h
        · cases h
        · rename_i last taken
          have three := wordLength taken
          have four := skipBlankLength last
          split at h
          · cases h
          · rename_i closing
            rw [closing,List.length_cons] at four
            split at h <;> cases h
            omega
      · cases h

def onlyKey (cs : List Char) : Except Fault (String × List Char) :=
  match nextKey true cs with
  | .error e => .error e
  | .ok (none,_) => .error (Reason.expectedValue.into (skipBlank cs))
  | .ok (some name,rest) => .ok (name,rest)

theorem onlyKeyLength {cs name rest} (h : onlyKey cs = .ok (name,rest)) : rest.length < cs.length := by
  unfold onlyKey at h
  split at h
  · cases h
  · cases h
  · rename_i next; cases h; exact nextKeyLength next

def readChoice {α : Type} (choices : List (String × α)) (cs : List Char) : Except Fault (α × List Char) :=
  match skipBlank cs with
  | [] => .error (Reason.endInValue.before [])
  | c :: rest =>
      if c = '{' then
        match onlyKey rest with
        | .error e => .error e
        | .ok read =>
            match chosen choices read with
            | .error e => .error e
            | .ok (a,more) => (nothingMore more).map (a,·)
      else if c = '"' then
        match (string "variant identifier").run (c :: rest) with
        | .error e => .error e
        | .ok read => chosen choices read
      else .error (Reason.expectedValue.into (c :: rest))

theorem readChoiceLength {α : Type} {choices : List (String × α)} {cs a last}
    (h : readChoice choices cs = .ok (a,last)) : last.length < cs.length := by
  unfold readChoice at h
  have first := skipBlankLength cs
  split at h
  · cases h
  · rename_i c tail start
    rw [start,List.length_cons] at first
    split at h
    · split at h
      · cases h
      · rename_i read named
        obtain ⟨_,_⟩ := read
        have one := onlyKeyLength named
        split at h
        · cases h
        · rename_i more found
          have same := chosenRest found
          cases ended : nothingMore more with
          | error e => simp [ended,Except.map] at h
          | ok rest =>
              simp only [ended,Except.map] at h; cases h
              have := nothingMoreLength ended
              simp only [same] at this; omega
    · split at h
      · split at h
        · cases h
        · rename_i read named
          obtain ⟨_,_⟩ := read
          have one := (string "variant identifier").shorter named
          have same := chosenRest h
          simp only [List.length_cons] at one
          simp only [same]; omega
      · cases h

def choice {α : Type} (choices : List (String × α)) : Reader Fault α :=
  ⟨readChoice choices,readChoiceLength⟩

def parse {α : Type} (reader : Reader Fault α) (text : String) : Except Error α :=
  match reader.run text.toList with
  | .error e => .error (e.locate text.toList)
  | .ok (a,rest) =>
      match skipBlank rest with
      | [] => .ok a
      | c :: more => .error ((Reason.trailingCharacters.into (c :: more)).locate text.toList)

end SyntaxCatalog.Json
