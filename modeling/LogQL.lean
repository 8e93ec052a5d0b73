import LogQL.Command.LogFilter
import LogQL.Main
import LogQL.Tree.Draft
import LogQL.Proofs.Cache.Aging
import LogQL.Proofs.Cache.Clearing
import LogQL.Proofs.Cache.Counting
import LogQL.Proofs.Cache.Register
import LogQL.Proofs.Command.LintReport
import LogQL.Proofs.Completion.Quoting
import LogQL.Proofs.Completion.Sources
import LogQL.Proofs.Context.Anchor
import LogQL.Proofs.Context.BeforeCursor
import LogQL.Proofs.Context.Checked
import LogQL.Proofs.Context.TextRules
import LogQL.Proofs.Context.TreeRules
import LogQL.Proofs.Diagnostic.BracketFindings
import LogQL.Proofs.Diagnostic.Checked
import LogQL.Proofs.Diagnostic.Findings
import LogQL.Proofs.Diagnostic.Positions
import LogQL.Proofs.Diagnostic.Rules
import LogQL.Proofs.Fetch.Headers
import LogQL.Proofs.Labels.Addresses
import LogQL.Proofs.Labels.Answers
import LogQL.Proofs.Labels.Failures
import LogQL.Proofs.Labels.Replies
import LogQL.Proofs.Labels.Separation
import LogQL.Proofs.Labels.Tables
import LogQL.Proofs.Session.Accounts
import LogQL.Proofs.Session.Clearing
import LogQL.Proofs.Session.Tokens
import LogQL.Proofs.Text.ByteOrder
import LogQL.Proofs.Text.Stops
import LogQL.Proofs.Tree.CreationOrder
import LogQL.Proofs.Tree.Innermost
import LogQL.Proofs.Json.Exchange
import LogQL.Proofs.Settings.Leaves
import LogQL.Proofs.Settings.Variables
