import Etracker.Blocks.Format
import Etracker.Data.Decoded
import Etracker.Http.Send

namespace Etracker.Blocks

open Foundation Foundation.CString Foundation.Outcome Http

/-- What `formatStats` reads. `vsprintf` prints loads, times and numbers as the locale has it. -/
structure Stats where
  failed : Int
  /-- The arguments of the first call behind `background`, printed. -/
  printed : Fin 64 → List UInt8
  /-- The flag `'` of a format. -/
  grouped : Nat → List UInt8
  strerror : Nat → List UInt8
  closeErrno : Fin (statsErrnoMaxIndex + 1) → UInt64
  sendErrno : Fin (statsErrnoMaxIndex + 1) → UInt64
  recvErrno : Fin (statsErrnoMaxIndex + 1) → UInt64
  acceptErrno : Fin (statsErrnoMaxIndex + 1) → UInt64
  sendErrnoUdp : Fin (statsErrnoMaxIndex + 1) → UInt64
  recvErrnoUdp : Fin (statsErrnoMaxIndex + 1) → UInt64

def statsRow (name : String) : List String := ["<tr><td>", name, "<td>"]

def statsGap : List String := ["<tr><td colspan=2>&nbsp;"]

/-- The strings that the format puts one behind the other, up to where an argument is printed. -/
def statsFormat : List (List String) :=
  [["<!DOCTYPE html>\n", "<html lang='en'>", "<head>", "<title>etracker stats</title>",
      "<meta name='viewport' content='width=450, initial-scale=1'>", "<style>",
      "th \x7btext-align: left\x7d ", "tr:nth-child(odd) \x7bbackground-color: #eee\x7d ",
      ".two td:first-child + td \x7btext-align: right\x7d ",
      ".three td:first-child + td + td \x7btext-align: right\x7d ", "</style>", "</head>",
      "<body style='background: "],
    ["'>", "<div style='white-space: pre-wrap; font-family: monospace'>",
      "github.com/truekenny/etracker - open-source BitTorrent tracker ("],
    [")\n\n", "start_time = "], [" ("], ["d) ("], ["f)\n", "thread_number = "],
    ["\n\n", "load_avg = "], [" "], [" "], ["\n", "interval = "], [" ("], ["->"],
    [")\n", "active_sockets = "], [" (rlimit "], ["/"],
    [")\n\n", "RPS:      TCP  TCP_MAX      UDP  UDP_MAX\n", "IPv4: "], ["  "], ["  "], ["  "],
    ["\n", "IPv6: "], ["  "], ["  "], ["  "],
    "\n\n" :: "<table class='two'>" :: statsRow "rusage.ru_maxrss ",
    statsGap ++ statsRow "malloc ", statsRow "calloc ", statsRow "*alloc ", statsRow "free ",
    statsRow "*alloc - free ",
    statsGap ++ statsRow "stats.http_101 ", statsRow "stats.http_200 ", statsRow "stats.http_400 ",
    statsRow "stats.http_401 ", statsRow "stats.http_403 (Full Scrape)",
    statsRow "stats.http_404 ", statsRow "stats.http_405 (Not GET)",
    statsRow "stats.http_408 (Timeout)", statsRow "stats.http_413 (Oversize)",
    statsGap ++ statsRow "stats.close_pass ", statsRow "stats.send_pass ",
    statsRow "stats.recv_pass ", statsRow "stats.accept_pass ",
    statsGap ++ statsRow "stats.close_failed ", statsRow "stats.send_skips ",
    statsRow "stats.send_failed ", statsRow "stats.recv_failed ", statsRow "stats.accept_failed ",
    statsGap ++ statsRow "stats.recv_failed_read_0 ", statsRow "stats.recv_failed_read_sub_0 ",
    statsRow "stats.recv_failed_read_not_equal ",
    statsGap ++ statsRow "stats.send_pass_udp ", statsRow "stats.recv_pass_udp ",
    statsGap ++ statsRow "stats.send_failed_udp ", statsRow "stats.recv_failed_udp ",
    statsGap ++ statsRow "stats.keep_alive ", statsRow "stats.no_keep_alive ",
    statsGap ++ statsRow "stats.sent_bytes ", statsRow "stats.recv_bytes ",
    statsGap ++ statsRow "stats.sent_bytes_udp ", statsRow "stats.recv_bytes_udp ",
    statsGap ++ statsRow "stats.announce ", statsRow "stats.scrape ",
    statsGap ++ statsRow "stats.connect_udp ", statsRow "stats.announce_udp ",
    statsRow "stats.scrape_udp ", statsGap ++ ["</table>"]]

def formatted : List (List String) → List (List UInt8) → List UInt8
  | piece :: pieces, value :: values => piece.flatMap ascii ++ value ++ formatted pieces values
  | pieces, _ => pieces.flatten.flatMap ascii

theorem formatted_length_le {limit : Nat} (pieces : List (List String))
    {values : List (List UInt8)} (short : ∀ value ∈ values, value.length ≤ limit) :
    (formatted pieces values).length ≤
      (pieces.flatten.flatMap ascii).length + values.length * limit := by
  fun_induction formatted pieces values with
  | case1 piece pieces value values ih =>
      have first := short value List.mem_cons_self
      have rest := ih fun other member => short other (List.mem_cons_of_mem _ member)
      simp only [List.flatten_cons, List.flatMap_append, List.length_cons, List.length_append,
        Nat.succ_mul]
      omega
  | case2 pieces values => exact Nat.le_add_right _ _

theorem length_flatMap_ascii_le {letters : List Char} {pieces : List String} {count : Nat}
    (rest : (pieces.flatMap ascii).length ≤ count) :
    ((String.ofList letters :: pieces).flatMap ascii).length ≤ letters.length + count := by
  rw [List.flatMap_cons, List.length_append, ascii, String.toList_ofList, List.length_map]
  exact Nat.add_le_add_left rest _

namespace Stats

variable (stats : Stats)

def background : List UInt8 := if stats.failed ≠ 0 then ascii "#fee" else ascii "white"

def head : List UInt8 := formatted statsFormat (stats.background :: List.ofFn stats.printed)

def errorsHead (name : String) : List UInt8 :=
  ascii "<tr><th colspan=3>" ++ ascii name ++ ascii " <tr><th>errno <th>count <th>name"

def errorRow (errno : Fin (statsErrnoMaxIndex + 1)) (count : UInt64) : List UInt8 :=
  ascii "<tr><td>" ++ stats.grouped errno ++ ascii " <td>" ++ stats.grouped count.toNat ++
    ascii " <td>'" ++ cString (stats.strerror errno) ++ ascii "'\n"

def errors (statErrno : Fin (statsErrnoMaxIndex + 1) → UInt64) (name : String) : List UInt8 :=
  errorsHead name ++ (List.finRange (statsErrnoMaxIndex + 1)).flatMap fun errno =>
    if statErrno errno ≠ 0 then stats.errorRow errno (statErrno errno) else []

def arrays : List ((Fin (statsErrnoMaxIndex + 1) → UInt64) × String) :=
  [(stats.closeErrno, "close_errno"), (stats.sendErrno, "send_errno"),
    (stats.recvErrno, "recv_errno"), (stats.acceptErrno, "accept_errno"),
    (stats.sendErrnoUdp, "send_errno_udp"), (stats.recvErrnoUdp, "recv_errno_udp")]

def page : List UInt8 :=
  stats.head ++ (ascii "<table class='two three'>" ++
    (stats.arrays.flatMap (fun array => stats.errors array.1 array.2) ++
      (ascii "</table>" ++ ascii "</div></body></html>")))

section Blocks

variable (found : Nat → UInt8)

def printErrorArray (block : Block) (statErrno : Fin (statsErrnoMaxIndex + 1) → UInt64)
    (name : String) : Except BlockFault Block := do
  let block ← block.addFormat found 1000 (errorsHead name)
  (List.finRange (statsErrnoMaxIndex + 1)).foldlM (fun block errno =>
    if statErrno errno ≠ 0 then
      block.addFormat found 1000 (stats.errorRow errno (statErrno errno))
    else pure block) block

def formatStats (block : Block) : Except BlockFault Block := do
  let block ← block.addFormat found 4500 stats.head
  let block ← block.addFormat found 1000 (ascii "<table class='two three'>")
  let block ← stats.printErrorArray found block stats.closeErrno "close_errno"
  let block ← stats.printErrorArray found block stats.sendErrno "send_errno"
  let block ← stats.printErrorArray found block stats.recvErrno "recv_errno"
  let block ← stats.printErrorArray found block stats.acceptErrno "accept_errno"
  let block ← stats.printErrorArray found block stats.sendErrnoUdp "send_errno_udp"
  let block ← stats.printErrorArray found block stats.recvErrnoUdp "recv_errno_udp"
  let block ← block.addFormat found 1000 (ascii "</table>")
  block.addFormat found 1000 (ascii "</div></body></html>")

end Blocks

structure Short (stats : Stats) : Prop where
  printed : ∀ place, (stats.printed place).length ≤ 34
  grouped : ∀ number, number < 2 ^ 64 → (stats.grouped number).length ≤ 34
  strerror : ∀ errno, (stats.strerror errno).length ≤ 900

namespace Short

variable {stats : Stats} (short : stats.Short)

include short

theorem head : stats.head.length ≤ 4500 := by
  -- The letters of each string are counted; `toList` would have to be evaluated for all of them.
  have format : (statsFormat.flatten.flatMap ascii).length ≤ 2233 := by
    simp only [statsFormat, statsRow, statsGap, List.flatten_cons, List.flatten_nil,
      List.cons_append, List.nil_append]
    apply Nat.le_trans
    · repeat apply length_flatMap_ascii_le
      exact Nat.le_refl 0
    · decide +kernel
  have background : stats.background.length ≤ 34 := by
    unfold background
    split_ifs <;> decide
  have each : ∀ value ∈ stats.background :: List.ofFn stats.printed, value.length ≤ 34 := by
    intro value member
    rcases List.mem_cons.mp member with rfl | isPrinted
    · exact background
    · obtain ⟨place, rfl⟩ := List.mem_ofFn.mp isPrinted
      exact short.printed place
  have length := formatted_length_le statsFormat each
  rw [List.length_cons, List.length_ofFn] at length
  exact (length.trans (Nat.add_le_add_right format _)).trans (by decide)

theorem errorRow (errno : Fin (statsErrnoMaxIndex + 1)) (count : UInt64) :
    (stats.errorRow errno count).length ≤ 1000 := by
  have number := short.grouped errno ((Fin.is_lt errno).trans (by decide))
  have counted := short.grouped count.toNat count.toNat_lt
  have told := short.strerror errno
  have cut : (cString (stats.strerror errno)).length ≤ (stats.strerror errno).length :=
    (List.takeWhile_prefix _).length_le
  have row : (ascii "<tr><td>").length = 8 := rfl
  have cell : (ascii " <td>").length = 5 := rfl
  have quote : (ascii " <td>'").length = 6 := rfl
  have ends : (ascii "'\n").length = 2 := rfl
  simp only [Stats.errorRow, List.length_append]
  omega

theorem printErrorArray_appends (found : Nat → UInt8)
    (statErrno : Fin (statsErrnoMaxIndex + 1) → UInt64) {name : String}
    (named : (errorsHead name).length ≤ 1000) :
    Appends (fun block => stats.printErrorArray found block statErrno name)
      (stats.errors statErrno name) 258000 := by
  have space : (1000 : UInt32).toNat = 1000 := rfl
  have row : ∀ errno, Appends (fun block =>
      if statErrno errno ≠ 0 then
        block.addFormat found 1000 (stats.errorRow errno (statErrno errno))
      else pure block)
      (if statErrno errno ≠ 0 then stats.errorRow errno (statErrno errno) else []) 1000 := by
    intro errno
    by_cases given : statErrno errno ≠ 0
    · simp only [if_pos given]
      exact Appends.format found (short.errorRow errno _)
    · simp only [if_neg given]
      exact Appends.nothing.change rfl (Nat.zero_le _)
  have head : Appends (fun block => block.addFormat found 1000 (errorsHead name)) _ _ :=
    Appends.format found named
  apply (head.bind (Appends.foldlM row (List.finRange (statsErrnoMaxIndex + 1)))).change rfl
  rw [List.length_finRange]
  decide

theorem formatStats_appends (found : Nat → UInt8) :
    Appends (stats.formatStats found) stats.page 1555500 := by
  have line : ∀ {text : List UInt8}, text.length ≤ 1000 →
      Appends (fun block => block.addFormat found 1000 text) text 1000 :=
    fun fits => Appends.format found fits
  have head : Appends (fun block => block.addFormat found 4500 stats.head) stats.head 4500 :=
    Appends.format found short.head
  have errors := fun statErrno name => @printErrorArray_appends stats short found statErrno name
  have whole := head.bind ((@line (ascii "<table class='two three'>") (by decide)).bind
    ((errors stats.closeErrno "close_errno" (by decide)).bind
    ((errors stats.sendErrno "send_errno" (by decide)).bind
    ((errors stats.recvErrno "recv_errno" (by decide)).bind
    ((errors stats.acceptErrno "accept_errno" (by decide)).bind
    ((errors stats.sendErrnoUdp "send_errno_udp" (by decide)).bind
    ((errors stats.recvErrnoUdp "recv_errno_udp" (by decide)).bind
    ((@line (ascii "</table>") (by decide)).bind
      (@line (ascii "</div></body></html>") (by decide))))))))))
  apply whole.change _ (by decide)
  simp only [Stats.page, Stats.arrays, List.flatMap_cons, List.flatMap_nil, List.append_nil,
    List.append_assoc]

end Short

end Stats

end Etracker.Blocks
