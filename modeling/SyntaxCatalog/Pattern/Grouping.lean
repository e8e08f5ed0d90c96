import SyntaxCatalog.Pattern.Bracket

/-! Patterns from text. Groups that are open wait on a stack, each with the choices and items that were
read before it. -/
namespace SyntaxCatalog.Pattern

inductive Lexeme where
  | opened (flags : Flags) (name : Option (List Char))
  | setting (flags : Flags)
  | closed
  | bar
  | repetition
  | item (p : Pattern)

def opening (spaced : Bool) (cs : List Char) : Option (Lexeme × List Char) :=
  match skip spaced cs with
  | '?' :: '<' :: '=' :: _ | '?' :: '<' :: '!' :: _ => none
  | '?' :: 'P' :: '<' :: rest | '?' :: '<' :: rest =>
      match readName true rest with
      | none | some ([],_) => none
      | some (name,more) => some (.opened [] (some name),more)
  | '?' :: rest =>
      match readFlags [] false false rest with
      | none => none
      | some (flags,last,more) =>
          if last = ':' then some (.opened flags none,more)
          else if flags.isEmpty then none
          else some (.setting flags,more)
  | rest => some (.opened [] none,rest)

theorem openingLength {spaced cs read} (h : opening spaced cs = some read) :
    read.2.length ≤ cs.length := by
  unfold opening at h
  have before := skipLength spaced cs
  split at h
  · cases h
  · cases h
  · rename_i start
    rw [start] at before
    split at h
    · cases h
    · cases h
    · rename_i name
      have := readNameLength name
      cases h; simp only [List.length_cons] at before this ⊢; omega
  · rename_i start
    rw [start] at before
    split at h
    · cases h
    · cases h
    · rename_i name
      have := readNameLength name
      cases h; simp only [List.length_cons] at before this ⊢; omega
  · rename_i start
    rw [start] at before
    split at h
    · cases h
    · rename_i flags
      have := readFlagsLength flags
      simp only [List.length_cons] at before this
      split at h
      · cases h; simp only; omega
      · split at h <;> cases h
        simp only; omega
  · cases h; exact before

def Escape.pattern : Escape → Pattern
  | .literal l => .literal l
  | .shorthand negated => .charSet (.shorthand negated)
  | .place word => .place word

def lexeme (spaced : Bool) (c : Char) (cs : List Char) : Option (Lexeme × List Char) :=
  match c with
  | '(' => opening spaced cs
  | ')' => some (.closed,cs)
  | '|' => some (.bar,cs)
  | '*' | '+' | '?' => some (.repetition,if cs.head? == some '?' then cs.drop 1 else cs)
  | '{' => none
  | '[' => (readSet spaced cs).map (fun (s,rest) => (.item (.charSet s),rest))
  | '\\' => (escape spaced cs).map (fun (e,rest) => (.item e.pattern,rest))
  | '.' => some (.item .dot,cs)
  | '^' | '$' => some (.item (.place false),cs)
  | _ => some (.item (.literal ⟨c,false⟩),cs)

theorem lexemeLength {spaced c cs read} (h : lexeme spaced c cs = some read) :
    read.2.length ≤ cs.length := by
  unfold lexeme at h
  split at h
  · exact openingLength h
  · cases h; exact Nat.le_refl _
  · cases h; exact Nat.le_refl _
  iterate 3
    · cases h
      simp only
      split <;> simp
  · cases h
  · obtain ⟨_,set,same⟩ := Option.map_eq_some_iff.1 h
    cases same; exact Nat.le_of_lt (readSetLength set)
  · obtain ⟨_,escaped,same⟩ := Option.map_eq_some_iff.1 h
    cases same; exact Nat.le_of_lt (escapeLength escaped)
  · cases h; exact Nat.le_refl _
  · cases h; exact Nat.le_refl _
  · cases h; exact Nat.le_refl _
  · cases h; exact Nat.le_refl _

structure Level where
  choices : List Pattern
  items : List Pattern

def Level.present (l : Level) : Pattern := ofItems l.items.reverse

def Level.pattern (l : Level) : Pattern :=
  match l.choices with
  | [] => l.present
  | choices => .choice (choices.reverse ++ [l.present])

def Level.add (l : Level) (p : Pattern) : Level := {l with items := p :: l.items}

structure OpenGroup where
  around : Level
  flags : Flags
  spaced : Bool

structure Draft where
  spaced : Bool
  names : List (List Char)
  level : Level
  groups : List OpenGroup

def Draft.start : Draft := ⟨false,[],⟨[],[]⟩,[]⟩

-- Adds what was read. A name is given once; only a closed group can be closed no more, and flags on
-- their own cannot be repeated.
def Draft.add (d : Draft) : Lexeme → Option Draft
  | .item p => some {d with level := d.level.add p}
  | .bar => some {d with level := ⟨d.level.present :: d.level.choices,[]⟩}
  | .setting flags =>
      some {d with level := d.level.add (.setting flags),spaced := (flags.lookup .spaced).getD d.spaced}
  | .repetition =>
      match d.level.items with
      | [] | .setting _ :: _ => none
      | p :: items => some {d with level := ⟨d.level.choices,.repeated p :: items⟩}
  | .opened flags name =>
      if name.any d.names.contains then none
      else some ⟨(flags.lookup .spaced).getD d.spaced,name.toList ++ d.names,⟨[],[]⟩,
        ⟨d.level,flags,d.spaced⟩ :: d.groups⟩
  | .closed =>
      match d.groups with
      | [] => none
      | g :: groups => some ⟨g.spaced,d.names,g.around.add (.group g.flags d.level.pattern),groups⟩

def readPattern (d : Draft) (cs : List Char) : Option Pattern :=
  match _start : skip d.spaced cs with
  | [] => if d.groups.isEmpty then some d.level.pattern else none
  | c :: rest =>
      match _next : lexeme d.spaced c rest with
      | none => none
      | some (l,more) =>
          match d.add l with
          | none => none
          | some later => readPattern later more
  termination_by cs.length
  decreasing_by
    have one := skipLength d.spaced cs
    have two := lexemeLength (by assumption)
    rw [_start,List.length_cons] at one
    simp only at two
    omega

def ofText? (cs : List Char) : Option Pattern := readPattern .start cs

end SyntaxCatalog.Pattern
