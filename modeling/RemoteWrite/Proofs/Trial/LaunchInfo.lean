import RemoteWrite.Proofs.Text.Number
import RemoteWrite.Proofs.Trial.Filling
import RemoteWrite.Trial

/-!
# Arguments that name addresses

A template is filled as it reads exactly if none of the names that are replaced later begins in a
path (`Trial.fill_launchInfo_iff`). Paths are anyone's choice, and what they hold is looked through
again: a path that ends in part of a placeholder takes the rest of it from the template.
-/

namespace RemoteWrite

/-! ### Addresses -/

theorem not_mem_intercalate {c : Char} {sep : List Char} {parts : List (List Char)} (hsep : c ∉ sep)
    (hparts : ∀ part ∈ parts, c ∉ part) : c ∉ sep.intercalate parts := by
  induction parts with
  | nil => exact List.not_mem_nil
  | cons part parts ih =>
    rw [List.forall_mem_cons] at hparts
    cases parts with
    | nil => simpa using hparts.1
    | cons other parts =>
      rw [List.intercalate_cons_cons, List.mem_append, List.mem_append]
      rintro ((hmem | hmem) | hmem)
      · exact hparts.1 hmem
      · exact hsep hmem
      · exact ih hparts.2 hmem

/-- Digits are letters at most. -/
theorem not_mem_toDigits {b n : Nat} (hb : 1 < b) (hle : b ≤ 16) : '{' ∉ Nat.toDigits b n := by
  have hdigit : ∀ k < 16, '{' ≠ Nat.digitChar k := by decide
  induction n using Nat.strong_induction_on with
  | _ n ih =>
    rcases Nat.lt_or_ge n b with hn | hn
    · rw [Nat.toDigits_of_lt_base hn, List.mem_singleton]
      exact hdigit n (by omega)
    · rw [Nat.toDigits_of_base_le hb hn, List.mem_append, List.mem_singleton]
      rintro (hmem | heq)
      · exact ih (n / b) (Nat.div_lt_self (by omega) hb) hmem
      · exact hdigit (n % b) ((Nat.mod_lt n (by omega)).trans_le hle) heq

theorem not_mem_toString (n : Nat) : '{' ∉ (toString n).toList := by
  show '{' ∉ n.repr.toList
  rw [Nat.toList_repr]
  exact not_mem_toDigits (by decide) (by decide)

theorem Ipv4.not_mem_text (ip : Ipv4) : '{' ∉ ip.text.toList := by
  rw [text, String.toList_intercalate, List.map_map]
  refine not_mem_intercalate (by decide) fun part hpart => ?_
  obtain ⟨octet, -, rfl⟩ := List.mem_map.mp hpart
  exact not_mem_toString octet.toNat

theorem Ipv4.exists_text_eq (ip : Ipv4) :
    ∃ c rest, ip.text.toList = c :: rest ∧ c.isDigit = true := by
  have hdigits : (toString ip.first.toNat).toList = Nat.toDigits 10 ip.first.toNat :=
    Nat.toList_repr
  have hne : Nat.toDigits 10 ip.first.toNat ≠ [] := Nat.toDigits_ne_nil
  obtain ⟨c, rest, hfirst⟩ := List.exists_cons_of_ne_nil hne
  have hc : c ∈ Nat.toDigits 10 ip.first.toNat := by
    rw [hfirst]
    exact List.mem_cons_self
  have htext : ∃ more, ip.text.toList = (toString ip.first.toNat).toList ++ more := by
    rw [text, String.toList_intercalate, List.map_cons, List.map_cons, List.map_cons,
      List.map_cons, List.intercalate_cons_cons, List.append_assoc]
    exact ⟨_, rfl⟩
  obtain ⟨more, hmore⟩ := htext
  refine ⟨c, rest ++ more, ?_, Text.isDigit_of_mem_toDigits hc⟩
  rw [hmore, hdigits, hfirst]
  rfl

theorem Ipv6.not_mem_groupsText (groups : List UInt16) : '{' ∉ (groupsText groups).toList := by
  rw [groupsText, String.toList_intercalate, List.map_map]
  refine not_mem_intercalate (by decide) fun part hpart => ?_
  obtain ⟨group, -, rfl⟩ := List.mem_map.mp hpart
  show '{' ∉ (String.ofList _).toList
  rw [String.toList_ofList]
  exact not_mem_toDigits (by decide) (by decide)

theorem Ipv6.not_mem_text (ip : Ipv6) : '{' ∉ ip.text.toList := by
  unfold text
  split
  · next v4 _ =>
    rw [String.toList_append, List.mem_append, not_or]
    exact ⟨by decide, v4.not_mem_text⟩
  · dsimp only
    split
    · rw [String.toList_append, String.toList_append, List.mem_append, List.mem_append, not_or,
        not_or]
      exact ⟨⟨not_mem_groupsText _, by decide⟩, not_mem_groupsText _⟩
    · exact not_mem_groupsText _

namespace SocketAddress

theorem not_mem_zoneText (zone : UInt32) : '{' ∉ (zoneText zone).toList := by
  unfold zoneText
  split
  · decide
  · rw [String.toList_append, List.mem_append, not_or]
    exact ⟨by decide, not_mem_toString _⟩

theorem not_mem_text (address : SocketAddress) : '{' ∉ address.text.toList := by
  cases address with
  | v4 ip number =>
    simp only [text, String.toList_append, List.mem_append, not_or]
    exact ⟨⟨ip.not_mem_text, by decide⟩, not_mem_toString _⟩
  | v6 ip zone number =>
    simp only [text, String.toList_append, List.mem_append, not_or]
    exact ⟨⟨⟨⟨by decide, ip.not_mem_text⟩, not_mem_zoneText zone⟩, by decide⟩, not_mem_toString _⟩

theorem exists_text_eq (address : SocketAddress) : ∃ c rest, address.text.toList = c :: rest ∧
    (c.isDigit = true ∨ c = '[') := by
  cases address with
  | v4 ip number =>
    obtain ⟨c, rest, htext, hc⟩ := ip.exists_text_eq
    refine ⟨c, rest ++ ":".toList ++ (toString number.toNat).toList, ?_, .inl hc⟩
    rw [text, String.toList_append, String.toList_append, htext]
    rfl
  | v6 ip zone number =>
    refine ⟨'[', (ip.text ++ zoneText zone ++ "]:" ++ toString number.toNat).toList, ?_, .inr rfl⟩
    simp only [text, String.toList_append, List.append_assoc]
    rfl

end SocketAddress

/-! ### Names in braces -/

namespace LaunchInfo

/-- The names in braces with what they stand for. -/
def pairs (i : LaunchInfo) : Pairs := [
  ((placeholder "remote_write_url").toList, i.writeUrl.toList),
  ((placeholder "scrape_url").toList, i.scrapeUrl.toList),
  ((placeholder "scrape_address").toList, i.scrapeAddress.text.toList),
  ((placeholder "protocol_version").toList, i.version.name.toList)]

theorem toList_fill (i : LaunchInfo) (template : String) :
    (i.fill template).toList = passes i.pairs template.toList := by
  simp only [fill, replacements, List.foldl_cons, List.foldl_nil, replaceAll, String.toList_ofList,
    pairs, passes]

theorem isPlaceholder {name : String} (hopen : '{' ∉ name.toList) (hclose : '}' ∉ name.toList) :
    IsPlaceholder (placeholder name).toList := by
  refine ⟨name.toList, ?_, hopen, hclose⟩
  rw [placeholder, String.toList_append, String.toList_append]
  rfl

end LaunchInfo

theorem Version.toList_name (v : Version) : ∃ digit, v.name.toList = ['v', digit] := by
  cases v with
  | legacy => exact ⟨'1', rfl⟩
  | indexed => exact ⟨'2', rfl⟩

namespace Trial

open LaunchInfo

section
variable (settings : Settings) (sockets : Sockets)

theorem toList_writeUrl : (launchInfo settings sockets).writeUrl.toList
    = "http://".toList ++ sockets.receiver.text.toList ++ settings.writePath.toList := by
  rw [launchInfo, String.toList_append, String.toList_append]

theorem toList_scrapeUrl : (launchInfo settings sockets).scrapeUrl.toList
    = "http://".toList ++ sockets.scrape.text.toList ++ settings.scrapePath.toList := by
  rw [launchInfo, String.toList_append, String.toList_append]

theorem placeholders_launchInfo : Placeholders (launchInfo settings sockets).pairs := by
  obtain ⟨d, address, haddress, hd⟩ := sockets.scrape.exists_text_eq
  have hall : (placeholder "protocol_version").toList.all (fun c => !c.isDigit && c != '[')
      = true := by decide
  have hversion : d ∉ (placeholder "protocol_version").toList := by
    intro hmem
    have hnot := List.all_eq_true.mp hall d hmem
    rcases hd with hd | rfl
    · rw [hd] at hnot
      cases hnot
    · cases hnot
  refine ⟨?pattern, ?value, ?later⟩
  case pattern =>
    simp only [pairs, List.forall_mem_cons, List.not_mem_nil, false_implies, implies_true, and_true]
    exact ⟨isPlaceholder (by decide) (by decide), isPlaceholder (by decide) (by decide),
      isPlaceholder (by decide) (by decide), isPlaceholder (by decide) (by decide)⟩
  case value =>
    simp only [pairs, List.forall_mem_cons, List.not_mem_nil, false_implies, implies_true, and_true,
      toList_writeUrl, toList_scrapeUrl]
    refine ⟨⟨'h', _, rfl, by decide⟩, ⟨'h', _, rfl, by decide⟩, ⟨d, address, haddress, ?_⟩, ?_⟩
    · rintro rfl
      exact sockets.scrape.not_mem_text (haddress ▸ List.mem_cons_self)
    · obtain ⟨digit, hname⟩ := (launchInfo settings sockets).version.toList_name
      exact ⟨'v', [digit], hname, by decide⟩
  case later =>
    simp only [pairs, List.pairwise_cons, List.Pairwise.nil, List.forall_mem_cons,
      List.not_mem_nil, false_implies, implies_true, and_true, toList_writeUrl, toList_scrapeUrl]
    exact ⟨⟨⟨by decide, 'h', _, rfl, by decide⟩, ⟨by decide, 'h', _, rfl, by decide⟩,
        ⟨by decide, 'h', _, rfl, by decide⟩⟩,
      ⟨⟨by decide, 'h', _, rfl, by decide⟩, ⟨by decide, 'h', _, rfl, by decide⟩⟩,
      ⟨by decide, d, address, haddress, hversion⟩⟩

/-- Before its path a URL has no opening brace. -/
theorem begins_url_iff {name : String} (hopen : '{' ∉ name.toList) (hclose : '}' ∉ name.toList)
    (address : SocketAddress) (path : String) :
    Begins (placeholder name).toList ("http://".toList ++ address.text.toList ++ path.toList) ↔
      Begins (placeholder name).toList path.toList := by
  refine (isPlaceholder hopen hclose).begins_append_iff ?_
  rw [List.mem_append, not_or]
  exact ⟨by decide, address.not_mem_text⟩

/-- Templates are filled all at once exactly if no name that is replaced later begins in a path. -/
theorem fill_launchInfo_iff :
    (∀ template : String, Filled (launchInfo settings sockets).pairs template.toList
      ((launchInfo settings sockets).fill template).toList) ↔
    (∀ name ∈ ["scrape_url", "scrape_address", "protocol_version"],
      ¬ Begins (placeholder name).toList settings.writePath.toList) ∧
    ∀ name ∈ ["scrape_address", "protocol_version"],
      ¬ Begins (placeholder name).toList settings.scrapePath.toList := by
  have htemplates : (∀ template : String, Filled (launchInfo settings sockets).pairs template.toList
      ((launchInfo settings sockets).fill template).toList) ↔
      ∀ cs, Filled (launchInfo settings sockets).pairs cs
        (passes (launchInfo settings sockets).pairs cs) := by
    simp only [toList_fill]
    refine ⟨fun h cs => ?_, fun h template => h template.toList⟩
    have hcs := h (String.ofList cs)
    rwa [String.toList_ofList] at hcs
  have haddress : ¬ Begins (placeholder "protocol_version").toList
      (launchInfo settings sockets).scrapeAddress.text.toList :=
    (isPlaceholder (by decide) (by decide)).not_begins_of_not_mem sockets.scrape.not_mem_text
  rw [htemplates, filled_passes_iff (placeholders_launchInfo settings sockets)]
  simp only [pairs, List.pairwise_cons, List.forall_mem_cons, toList_writeUrl, toList_scrapeUrl]
  rw [begins_url_iff (by decide) (by decide), begins_url_iff (by decide) (by decide),
    begins_url_iff (by decide) (by decide), begins_url_iff (by decide) (by decide),
    begins_url_iff (by decide) (by decide)]
  simp [haddress]

end

/-- The path of the receiver is a name in braces. -/
def namedPath : Settings := { Settings.default with writePath := "/\x7bprotocol_version\x7d" }

def localSockets : Sockets where
  receiver := .v4 ⟨127, 0, 0, 1⟩ 9000
  scrape := .v4 ⟨127, 0, 0, 1⟩ 9001
  reachable := false

/-- The path does not stay what it is. -/
theorem fill_namedPath :
    (launchInfo namedPath localSockets).fill "\x7bremote_write_url\x7d"
        = "http://127.0.0.1:9000/v2" ∧
      ¬ Filled (launchInfo namedPath localSockets).pairs "\x7bremote_write_url\x7d".toList
        ((launchInfo namedPath localSockets).fill "\x7bremote_write_url\x7d").toList := by
  have hfill : (launchInfo namedPath localSockets).fill "\x7bremote_write_url\x7d"
      = "http://127.0.0.1:9000/v2" := by cbv
  refine ⟨hfill, fun h => ?_⟩
  have hmem : ((placeholder "remote_write_url").toList,
      (launchInfo namedPath localSockets).writeUrl.toList)
        ∈ (launchInfo namedPath localSockets).pairs := List.mem_cons_self
  have hright : Filled (launchInfo namedPath localSockets).pairs "\x7bremote_write_url\x7d".toList
      ((launchInfo namedPath localSockets).writeUrl.toList ++ []) := .value hmem .nil
  have heq := h.unique (placeholders_launchInfo namedPath localSockets) hright
  rw [hfill] at heq
  revert heq
  decide

-- a path that only begins a name takes the rest of it from the template
example : (launchInfo { Settings.default with writePath := "/\x7bprotocol_" } localSockets).fill
    "\x7bremote_write_url\x7dversion\x7d" = "http://127.0.0.1:9000/v2" := by cbv

end Trial

end RemoteWrite
