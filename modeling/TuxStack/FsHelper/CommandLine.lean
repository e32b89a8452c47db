import TuxStack.FsHelper.Listing
import TuxStack.Tar.Header

/-!
# The helper's command line

`parse_flags` of `crates/tuxstack-fs-helper/src/path.rs`: the flags of all commands, in any
order, a later one in place of an earlier. Numbers are read by `str::parse` of a 64-bit
target.
-/

namespace TuxStack.FsHelper

open Vfs Tar Result

structure CommandFlags extends Flags where
  offset : Nat
  readLimit : Nat
  algorithm : Bytes

def CommandFlags.standard : CommandFlags where
  root := ascii "/"
  token := []
  showHidden := false
  limit := none
  cursor := none
  offset := 0
  readLimit := 64 * 1024
  algorithm := ascii "sha256"

def parseNumber (raw : Bytes) : Except HelperErrorCode Nat :=
  match parseU64 raw with
  | none => .error .invalidArgs
  | some value => .ok value

def setFlag (flags : CommandFlags) (arg value : Bytes) : Except HelperErrorCode CommandFlags :=
  if arg = ascii "--root" then .ok { flags with root := value }
  else if arg = ascii "--path-token" then .ok { flags with token := value }
  else if arg = ascii "--limit" then
    (parseNumber value).map fun limit => { flags with limit := some limit }
  else if arg = ascii "--cursor" then .ok { flags with cursor := some value }
  else if arg = ascii "--offset" then
    (parseNumber value).map fun offset => { flags with offset := offset }
  else if arg = ascii "--limit-bytes" then
    (parseNumber value).map fun limit => { flags with readLimit := limit }
  else if arg = ascii "--algorithm" then .ok { flags with algorithm := value }
  else .error .invalidArgs

/-- The loop of `parse_flags`; `seenToken` says that `--path-token` was there. The last
argument can only be a flag without a value. -/
def parseLoop (flags : CommandFlags) (seenToken : Bool) :
    List Bytes → Except HelperErrorCode (CommandFlags × Bool)
  | [] => .ok (flags, seenToken)
  | [arg] =>
    if arg = ascii "--show-hidden" then .ok ({ flags with showHidden := true }, seenToken)
    else .error .invalidArgs
  | arg :: value :: args =>
    if arg = ascii "--show-hidden" then
      parseLoop { flags with showHidden := true } seenToken (value :: args)
    else
      match setFlag flags arg value with
      | .error code => .error code
      | .ok flags => parseLoop flags (seenToken || arg = ascii "--path-token") args

def parseFlags (args : List Bytes) : Except HelperErrorCode CommandFlags := do
  let (flags, seenToken) ← parseLoop .standard false args
  if seenToken then .ok flags else .error .invalidArgs

/-! ## A cursor at the end -/

def cursorArgs (cursor : Bytes) : List Bytes := [ascii "--cursor", cursor]

theorem parseLoop_cursor (cursor : Bytes) : ∀ {args : List Bytes} {flags flags' : CommandFlags}
    {seen seen' : Bool}, parseLoop flags seen args = .ok (flags', seen') →
    parseLoop flags seen (args ++ cursorArgs cursor) =
      .ok ({ flags' with cursor := some cursor }, seen') := by
  have hlast : ∀ (flags : CommandFlags) (seen : Bool), parseLoop flags seen (cursorArgs cursor) =
      .ok ({ flags with cursor := some cursor }, seen) := by
    intro flags seen
    have hhidden : ¬ ascii "--cursor" = ascii "--show-hidden" := by decide +kernel
    have htoken : (decide (ascii "--cursor" = ascii "--path-token")) = false := by decide +kernel
    have hset : setFlag flags (ascii "--cursor") cursor =
        .ok { flags with cursor := some cursor } := by
      unfold setFlag
      rw [if_neg (by decide +kernel), if_neg (by decide +kernel), if_neg (by decide +kernel),
        if_pos rfl]
    unfold cursorArgs parseLoop
    rw [if_neg hhidden, hset, htoken, Bool.or_false]
    rfl
  intro args flags flags' seen seen'
  fun_induction parseLoop flags seen args with
  | case1 =>
    intro h
    cases h
    exact hlast _ _
  | case2 =>
    intro h
    cases h
    rw [List.singleton_append, cursorArgs, parseLoop, if_pos rfl]
    exact hlast _ _
  | case3 | case5 =>
    intro h
    cases h
  | case4 flags seen value args ih =>
    intro h
    rw [List.cons_append, List.cons_append, parseLoop, if_pos rfl]
    exact ih h
  | case6 flags seen arg value args harg next hset ih =>
    intro h
    rw [List.cons_append, List.cons_append, parseLoop, if_neg harg, hset]
    exact ih h

/-- **One more flag**: a cursor at the end is the cursor. -/
theorem parseFlags_cursor {args : List Bytes} {flags : CommandFlags}
    (h : parseFlags args = .ok flags) (cursor : Bytes) :
    parseFlags (args ++ cursorArgs cursor) = .ok { flags with cursor := some cursor } := by
  obtain ⟨⟨parsed, seen⟩, hloop, hseen⟩ := bind_eq_ok.mp h
  refine bind_eq_ok.mpr ⟨_, parseLoop_cursor cursor hloop, ?_⟩
  cases seen with
  | false => cases hseen
  | true =>
    cases hseen
    rfl

end TuxStack.FsHelper
