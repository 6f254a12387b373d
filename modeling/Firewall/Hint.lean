import Firewall.Text.Blank

namespace Firewall

structure Hint where
  message : String
  suggestions : List String
  deriving DecidableEq, Repr

namespace Hint

/-- Whether a text that is in lower case mentions a phrase. -/
def mentions (text : List Char) (phrase : String) : Bool := Text.contains phrase.toList text

/-- The hint for a failure; the first pattern that its message fits, whatever the case. -/
def ofMessage (message : String) : Hint :=
  let text := Text.lower message.toList
  let tells := mentions text
  if tells "permission denied" || tells "operation not permitted" then
    ⟨"Insufficient permissions to modify firewall rules",
      ["Run as root or grant CAP_NET_ADMIN",
       "Entering a named network namespace also requires CAP_SYS_ADMIN"]⟩
  else if tells "no such file" || tells "command not found" then
    ⟨"nftables is not installed or not found in PATH",
      ["Install nftables: sudo apt install nftables  (Debian/Ubuntu)",
       "Or point HOSTWALL_NFT_COMMAND at the nft binary"]⟩
  else if tells "set" && tells "does not exist" then
    ⟨"A rule references a set that is not installed",
      ["Apply the baseline policy before updating or injecting rules",
       "Declare the set in the same transaction as the rule"]⟩
  else if tells "table" && tells "does not exist" then
    ⟨"Firewall table does not exist",
      ["The policy may have been removed externally; run apply again"]⟩
  else if tells "chain" && (tells "does not exist" || tells "not found") then
    ⟨"Firewall chain not found", ["Ensure the chain exists before adding rules to it"]⟩
  else if tells "netns" || tells "namespace" then
    ⟨"Network namespace could not be entered",
      ["Check the namespace exists: ip netns list",
       "Named namespaces live under /var/run/netns"]⟩
  else if tells "netlink" then
    ⟨"Communication error with kernel netlink interface",
      ["Check kernel modules: lsmod | grep nf_tables",
       "Load nf_tables module: sudo modprobe nf_tables"]⟩
  else if tells "resource busy" then
    ⟨"Firewall resource is busy",
      ["Another process may be modifying nftables; retry the operation"]⟩
  else
    ⟨"Firewall error: " ++ message, ["Verify nftables is working: sudo nft list ruleset"]⟩

end Hint
end Firewall
