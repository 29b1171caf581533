import TaggedPayload.Json.Reader
import TaggedPayload.Json.Writer

/-!
# Blanks between the tokens of a JSON text

The compact and the pretty text of a tree have the same tokens and differ in the blanks between
them. Both are the text of one spacing: which blanks stand in front of every item and every closing
bracket, by level, and which stand behind a colon.
-/

set_option autoImplicit false

namespace TaggedPayload.Json

structure Spacing where
  gap : Nat → List Char
  pad : List Char
  gap_blank : ∀ level, ∀ c ∈ gap level, isBlank c = true
  pad_blank : ∀ c ∈ pad, isBlank c = true

namespace Spacing

def tight : Spacing where
  gap := fun _ => []
  pad := []
  gap_blank := fun _ _ h => absurd h List.not_mem_nil
  pad_blank := fun _ h => absurd h List.not_mem_nil

theorem newline_blank (level : Nat) (c : Char) (h : c ∈ newline level) : isBlank c = true := by
  rcases List.mem_cons.mp h with rfl | h
  · rfl
  · rw [List.eq_of_mem_replicate h]
    rfl

def indented : Spacing where
  gap := newline
  pad := [' ']
  gap_blank := newline_blank
  pad_blank := by simp [isBlank]

mutual

/-- The text of a tree. A container that is not empty has a gap in front of each item. -/
def text (sp : Spacing) (level : Nat) : Json → List Char
  | null => "null".toList
  | bool true => "true".toList
  | bool false => "false".toList
  | integer neg n => writeInteger neg n
  | fraction literal => literal.toList
  | string s => writeString s
  | array [] => ['[', ']']
  | array (x :: xs) =>
    '[' :: (sp.gap (level + 1) ++ (sp.text (level + 1) x ++ sp.items level xs))
  | object [] => ['\x7b', '\x7d']
  | object ((k, x) :: ms) =>
    '\x7b' :: (sp.gap (level + 1) ++ (writeString k ++ ':' :: (sp.pad ++
      (sp.text (level + 1) x ++ sp.members level ms))))
  | broken part => sp.text level part

def items (sp : Spacing) (level : Nat) : List Json → List Char
  | [] => sp.gap level ++ [']']
  | x :: xs => ',' :: (sp.gap (level + 1) ++ (sp.text (level + 1) x ++ sp.items level xs))

def members (sp : Spacing) (level : Nat) : List (String × Json) → List Char
  | [] => sp.gap level ++ ['\x7d']
  | (k, x) :: ms =>
    ',' :: (sp.gap (level + 1) ++ (writeString k ++ ':' :: (sp.pad ++
      (sp.text (level + 1) x ++ sp.members level ms))))

end

/-! ## The two layouts -/

mutual

theorem text_tight (level : Nat) : (j : Json) → tight.text level j = compact j
  | null => by rw [text, compact]
  | bool true => by rw [text, compact]
  | bool false => by rw [text, compact]
  | integer _ _ => by rw [text, compact]
  | fraction _ => by rw [text, compact]
  | string _ => by rw [text, compact]
  | array [] => by rw [text, compact]
  | array (x :: xs) => by rw [text, compact, text_tight (level + 1) x, items_tight level xs]; rfl
  | object [] => by rw [text, compact]
  | object ((k, x) :: ms) => by
    rw [text, compact, text_tight (level + 1) x, members_tight level ms]; rfl
  | broken part => by rw [text, compact, text_tight level part]

theorem items_tight (level : Nat) : (xs : List Json) → tight.items level xs = compactItems xs
  | [] => by rw [items, compactItems]; rfl
  | x :: xs => by
    rw [items, compactItems, text_tight (level + 1) x, items_tight level xs]; rfl

theorem members_tight (level : Nat) :
    (ms : List (String × Json)) → tight.members level ms = compactMembers ms
  | [] => by rw [members, compactMembers]; rfl
  | (k, x) :: ms => by
    rw [members, compactMembers, text_tight (level + 1) x, members_tight level ms]; rfl

end

mutual

theorem text_indented (level : Nat) : (j : Json) → indented.text level j = pretty level j
  | null => by rw [text, pretty]
  | bool true => by rw [text, pretty]
  | bool false => by rw [text, pretty]
  | integer _ _ => by rw [text, pretty]
  | fraction _ => by rw [text, pretty]
  | string _ => by rw [text, pretty]
  | array [] => by rw [text, pretty]
  | array (x :: xs) => by
    rw [text, pretty, text_indented (level + 1) x, items_indented level xs, List.append_assoc]
    rfl
  | object [] => by rw [text, pretty]
  | object ((k, x) :: ms) => by
    rw [text, pretty, text_indented (level + 1) x, members_indented level ms, List.append_assoc]
    rfl
  | broken part => by rw [text, pretty, text_indented level part]

theorem items_indented (level : Nat) :
    (xs : List Json) → indented.items level xs = prettyItems level xs
  | [] => by rw [items, prettyItems]; rfl
  | x :: xs => by
    rw [items, prettyItems, text_indented (level + 1) x, items_indented level xs,
      List.append_assoc]
    rfl

theorem members_indented (level : Nat) :
    (ms : List (String × Json)) → indented.members level ms = prettyMembers level ms
  | [] => by rw [members, prettyMembers]; rfl
  | (k, x) :: ms => by
    rw [members, prettyMembers, text_indented (level + 1) x, members_indented level ms,
      List.append_assoc]
    rfl

end

end Spacing

end TaggedPayload.Json
