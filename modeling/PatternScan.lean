import PatternScan.Proofs.PatternFile
import PatternScan.Main
import PatternScan.Matcher
import PatternScan.Pool.Desk
import PatternScan.Proofs.Occurrences
import PatternScan.Proofs.Container.BrokenOff
import PatternScan.Proofs.Container.Layout
import PatternScan.Proofs.Container.Lengths
import PatternScan.Proofs.Container.InRange
import PatternScan.Proofs.Container.Shortest
import PatternScan.Proofs.Searches
import PatternScan.Proofs.Trie.Dictionary
import PatternScan.Proofs.Trie.PrefixTree
import PatternScan.Proofs.Trie.Search
import PatternScan.Proofs.Trie.Transitions
import PatternScan.Proofs.Walk
import PatternScan.Proofs.PatternFile.BadLine
import PatternScan.Proofs.Path
import PatternScan.Proofs.Report.Assembly
import PatternScan.Proofs.Report.Json
import PatternScan.Proofs.Settings
import PatternScan.Proofs.CommandLine.Precedence
