/-!
# Slices by byte offset

A text is a list of characters; its offsets count bytes of its UTF-8 form.  An offset
inside a character, or past the end, selects nothing.
-/

namespace SceneLang.Text

/-- The number of bytes of the UTF-8 form. -/
def byteLength : List Char → Nat
  | [] => 0
  | c :: rest => c.utf8Size + byteLength rest

@[simp] theorem byteLength_nil : byteLength [] = 0 := rfl

@[simp] theorem byteLength_cons (c : Char) (rest : List Char) :
    byteLength (c :: rest) = c.utf8Size + byteLength rest := rfl

@[simp] theorem byteLength_append (front back : List Char) :
    byteLength (front ++ back) = byteLength front + byteLength back := by
  induction front with
  | nil => simp
  | cons c rest ih => simp [ih, Nat.add_assoc]

theorem byteLength_reverse (text : List Char) : byteLength text.reverse = byteLength text := by
  induction text with
  | nil => rfl
  | cons c rest ih =>
      rw [List.reverse_cons, byteLength_append, ih, byteLength_cons, byteLength_cons,
        byteLength_nil, Nat.add_zero, Nat.add_comm]

/-- Cut the text at a byte offset, which has to be the start of a character or the end. -/
def cut? : Nat → List Char → Option (List Char × List Char)
  | 0, text => some ([], text)
  | _ + 1, [] => none
  | offset + 1, c :: rest =>
      if c.utf8Size ≤ offset + 1 then
        (cut? (offset + 1 - c.utf8Size) rest).map fun (front, back) => (c :: front, back)
      else none

theorem append_of_cut? {offset : Nat} {text front back : List Char}
    (h : cut? offset text = some (front, back)) :
    text = front ++ back ∧ byteLength front = offset := by
  induction text generalizing offset front with
  | nil =>
      cases offset with
      | zero => simp_all [cut?]
      | succ offset => simp [cut?] at h
  | cons c rest ih =>
      cases offset with
      | zero => simp_all [cut?]
      | succ offset =>
          rw [cut?] at h
          split at h
          next hsize =>
              obtain ⟨⟨front', back'⟩, hcut, heq⟩ := Option.map_eq_some_iff.1 h
              simp only [Prod.mk.injEq] at heq
              obtain ⟨rfl, rfl⟩ := heq
              obtain ⟨rfl, hlength⟩ := ih hcut
              exact ⟨rfl, by simp only [byteLength_cons]; omega⟩
          next => simp at h

theorem cut?_append (front back : List Char) :
    cut? (byteLength front) (front ++ back) = some (front, back) := by
  induction front with
  | nil => simp [cut?]
  | cons c rest ih =>
      have hpos : 0 < c.utf8Size := Char.utf8Size_pos c
      obtain ⟨k, hk⟩ : ∃ k, byteLength (c :: rest) = k + 1 :=
        ⟨byteLength (c :: rest) - 1, by simp only [byteLength_cons]; omega⟩
      have hk' : c.utf8Size + byteLength rest = k + 1 := by simpa using hk
      rw [hk, List.cons_append, cut?, if_pos (by omega)]
      have hrest : k + 1 - c.utf8Size = byteLength rest := by omega
      rw [hrest, ih]
      rfl

/-- Of two beginnings of a text the shorter one is a beginning of the longer one. -/
theorem exists_of_byteLength_le {front back longer rest : List Char}
    (h : front ++ back = longer ++ rest) (hle : byteLength front ≤ byteLength longer) :
    ∃ inside, longer = front ++ inside ∧ back = inside ++ rest := by
  obtain hlonger | ⟨inside, rfl, rfl⟩ := List.append_eq_append_iff.mp h
  · exact hlonger
  · rw [byteLength_append] at hle
    have hinside : inside = [] := by
      cases inside with
      | nil => rfl
      | cons c inside =>
          have hsize := Char.utf8Size_pos c
          rw [byteLength_cons] at hle
          omega
    subst hinside
    exact ⟨[], by rw [List.append_nil, List.append_nil], rfl⟩

/-- What follows a byte offset, which has to be the start of a character or the end. -/
def after? : Nat → List Char → Option (List Char)
  | 0, text => some text
  | _ + 1, [] => none
  | offset + 1, c :: rest =>
      if c.utf8Size ≤ offset + 1 then after? (offset + 1 - c.utf8Size) rest else none

theorem after?_eq_cut? (offset : Nat) (text : List Char) :
    after? offset text = (cut? offset text).map (·.2) := by
  induction text generalizing offset with
  | nil => cases offset <;> rfl
  | cons c rest ih =>
      cases offset with
      | zero => rfl
      | succ offset =>
          rw [after?, cut?]
          split
          · rw [ih, Option.map_map]
            rfl
          · rfl

def slice? (text : List Char) (start stop : Nat) : Option (List Char) :=
  if start ≤ stop then
    (after? start text).bind fun back => (cut? (stop - start) back).map (·.1)
  else none

/-- The characters between two byte offsets, none if the offsets select nothing. -/
def slice (text : List Char) (start stop : Nat) : List Char :=
  (slice? text start stop).getD []

end SceneLang.Text
