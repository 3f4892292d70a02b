import PacketClassifier.Logging.Control
import PacketClassifier.Pipeline.Classify
import PacketClassifier.Pipeline.Group
import PacketClassifier.Pipeline.Text
import PacketClassifier.Trie.Consistency
import PacketClassifier.Proofs.SideBySide
import PacketClassifier.Proofs.Trie.Tiebreak
import PacketClassifier.Proofs.Pipeline.Groups
import PacketClassifier.Proofs.Pipeline.Integrity
import PacketClassifier.Proofs.LeadingBits
import PacketClassifier.Proofs.CommonPrefix
import PacketClassifier.Proofs.Narrowing
import PacketClassifier.Proofs.Prefixes
import PacketClassifier.Proofs.Trie.Nesting
import PacketClassifier.Proofs.Trie.Routes
import PacketClassifier.Proofs.Trie.Depth
import PacketClassifier.Proofs.Trie.Sharing
import PacketClassifier.Proofs.Notices
import PacketClassifier.Proofs.Pipeline.Refusal
import PacketClassifier.Proofs.Pipeline.Order
import PacketClassifier.Proofs.Pipeline.NextTables
import PacketClassifier.Proofs.Tally
import PacketClassifier.Proofs.Overflow
import PacketClassifier.Proofs.Pipeline.Conservation
import PacketClassifier.Proofs.Accounts
import PacketClassifier.Proofs.Disjointness
import PacketClassifier.Proofs.Pipeline.Selection
import PacketClassifier.Proofs.Trie.Soundness
import PacketClassifier.Proofs.Logging.RoundTrip
import PacketClassifier.Proofs.Trie.WalkSteps
import PacketClassifier.Proofs.Text.Entries
import PacketClassifier.Proofs.InstallationOrder
import PacketClassifier.Proofs.ListTables
import PacketClassifier.Proofs.Pipeline.Traversal
import PacketClassifier.Proofs.Comparisons
import PacketClassifier.Proofs.Conjunctions
import PacketClassifier.Proofs.Logging.Composition
import PacketClassifier.Proofs.Widening
import PacketClassifier.MatchSet.Listing
import PacketClassifier.Proofs.Offers
import PacketClassifier.Proofs.Trie.Room
